import Sinkhole.Proofs.Store.Table

/-! The passes of a rebuild come to the due rows.

Each pass is one fact about ordered lists: hosts in order without repetitions, the
first redirect of each stretch of redirects for one host, and rows put into an
ordered table over those for the same host. `rebuild_tabulates` puts the passes
together, for every store. They can be carried out unless a host comes upon a pattern
that is too long before one matches it (`isRefused_iff`); so `sync_table` says what a
sync of any store comes to. -/
namespace Sinkhole.Store

/-! ### Hosts in order -/

theorem mem_insertHost {h host : String} {hosts : List String} :
    h ∈ insertHost host hosts ↔ h = host ∨ h ∈ hosts := by
  induction hosts with
  | nil => simp [insertHost]
  | cons k ks ih =>
    rw [insertHost]
    split
    · rw [List.mem_cons]
    · split
      · rename_i hk
        subst hk
        simp
      · rw [List.mem_cons, ih, List.mem_cons, or_left_comm]

theorem insertHost_ordered {host : String} {hosts : List String} (h : hosts.Pairwise (· < ·)) :
    (insertHost host hosts).Pairwise (· < ·) := by
  induction hosts with
  | nil => exact List.pairwise_singleton _ host
  | cons k ks ih =>
    obtain ⟨hk, hks⟩ := List.pairwise_cons.mp h
    rw [insertHost]
    split
    · rename_i hlt
      refine List.pairwise_cons.mpr ⟨fun x hx => ?_, h⟩
      rcases List.mem_cons.mp hx with rfl | hx
      · exact hlt
      · exact lt_trans hlt (hk x hx)
    · split
      · exact h
      · rename_i hnlt hne
        refine List.pairwise_cons.mpr ⟨fun x hx => ?_, ih hks⟩
        rcases mem_insertHost.mp hx with rfl | hx
        · exact lt_of_le_of_ne (not_lt.mp hnlt) (Ne.symm hne)
        · exact hk x hx

@[simp]
theorem mem_distinct {h : String} {hosts : List String} : h ∈ distinct hosts ↔ h ∈ hosts := by
  induction hosts with
  | nil => rfl
  | cons k ks ih =>
    show h ∈ insertHost k (distinct ks) ↔ _
    rw [mem_insertHost, ih, List.mem_cons]

theorem distinct_ordered (hosts : List String) : (distinct hosts).Pairwise (· < ·) := by
  induction hosts with
  | nil => exact .nil
  | cons k ks ih => exact insertHost_ordered ih

/-! ### Rows put into a table -/

theorem mem_insertRow {row r : HostRow} {table : List HostRow}
    (h : table.Pairwise (·.host < ·.host)) :
    r ∈ insertRow row table ↔ r = row ∨ (r ∈ table ∧ r.host ≠ row.host) := by
  induction table with
  | nil => simp [insertRow]
  | cons k ks ih =>
    obtain ⟨hk, hks⟩ := List.pairwise_cons.mp h
    rw [insertRow]
    split
    · rename_i hlt
      have hne : ∀ x ∈ k :: ks, x.host ≠ row.host := by
        intro x hx
        rcases List.mem_cons.mp hx with rfl | hx
        · exact (ne_of_lt hlt).symm
        · exact (ne_of_lt (lt_trans hlt (hk x hx))).symm
      rw [List.mem_cons]
      exact or_congr_right ⟨fun hr => ⟨hr, hne r hr⟩, fun hr => hr.1⟩
    · split
      · rename_i heq
        have hne : ∀ x ∈ ks, x.host ≠ row.host := fun x hx => by
          rw [heq]
          exact (ne_of_lt (hk x hx)).symm
        rw [List.mem_cons]
        refine or_congr_right ⟨fun hr => ⟨List.mem_cons_of_mem k hr, hne r hr⟩, fun hr => ?_⟩
        rcases List.mem_cons.mp hr.1 with rfl | hmem
        · exact absurd heq.symm hr.2
        · exact hmem
      · rename_i _ hne
        rw [List.mem_cons, ih hks, List.mem_cons]
        constructor
        · rintro (rfl | rfl | ⟨hr, hh⟩)
          · exact .inr ⟨.inl rfl, Ne.symm hne⟩
          · exact .inl rfl
          · exact .inr ⟨.inr hr, hh⟩
        · rintro (rfl | ⟨rfl | hr, hh⟩)
          · exact .inr (.inl rfl)
          · exact .inl rfl
          · exact .inr (.inr ⟨hr, hh⟩)

theorem insertRow_ordered {row : HostRow} {table : List HostRow}
    (h : table.Pairwise (·.host < ·.host)) : (insertRow row table).Pairwise (·.host < ·.host) := by
  induction table with
  | nil => exact List.pairwise_singleton _ row
  | cons k ks ih =>
    obtain ⟨hk, hks⟩ := List.pairwise_cons.mp h
    rw [insertRow]
    split
    · rename_i hlt
      refine List.pairwise_cons.mpr ⟨fun x hx => ?_, h⟩
      rcases List.mem_cons.mp hx with rfl | hx
      · exact hlt
      · exact lt_trans hlt (hk x hx)
    · split
      · rename_i heq
        exact List.pairwise_cons.mpr ⟨fun x hx => by rw [heq]; exact hk x hx, hks⟩
      · rename_i hnlt hne
        refine List.pairwise_cons.mpr ⟨fun x hx => ?_, ih hks⟩
        rcases (mem_insertRow hks).mp hx with rfl | ⟨hx, -⟩
        · exact lt_of_le_of_ne (not_lt.mp hnlt) (Ne.symm hne)
        · exact hk x hx

theorem foldl_insertRow_ordered (rows : List HostRow) {table : List HostRow}
    (h : table.Pairwise (·.host < ·.host)) :
    (rows.foldl (fun t r => insertRow r t) table).Pairwise (·.host < ·.host) := by
  induction rows generalizing table with
  | nil => exact h
  | cons x rows ih => exact ih (insertRow_ordered h)

/-- Rows for different hosts all come in, and of the table those for other hosts stay. -/
theorem mem_foldl_insertRow {rows table : List HostRow} (hrows : rows.Pairwise (·.host < ·.host))
    (h : table.Pairwise (·.host < ·.host)) (r : HostRow) :
    r ∈ rows.foldl (fun t r => insertRow r t) table ↔
      r ∈ rows ∨ (r ∈ table ∧ ∀ x ∈ rows, x.host ≠ r.host) := by
  induction rows generalizing table with
  | nil => simp
  | cons x rows ih =>
    obtain ⟨hx, hrows⟩ := List.pairwise_cons.mp hrows
    rw [List.foldl_cons, ih hrows (insertRow_ordered h), mem_insertRow h, List.mem_cons]
    constructor
    · rintro (hr | ⟨rfl | ⟨hr, hne⟩, hall⟩)
      · exact .inl (.inr hr)
      · exact .inl (.inl rfl)
      · refine .inr ⟨hr, fun y hy => ?_⟩
        rcases List.mem_cons.mp hy with rfl | hy
        · exact hne.symm
        · exact hall y hy
    · rintro ((rfl | hr) | ⟨hr, hall⟩)
      · exact .inr ⟨.inl rfl, fun y hy => (ne_of_lt (hx y hy)).symm⟩
      · exact .inl hr
      · exact .inr ⟨.inr ⟨hr, (hall x List.mem_cons_self).symm⟩,
          fun y hy => hall y (List.mem_cons_of_mem x hy)⟩

/-! ### The first redirect for each host -/

theorem redirectLe_iff {a b : Item} :
    redirectLe a b = true ↔ a.host < b.host ∨ (a.host = b.host ∧ b.source ≤ a.source) := by
  simp [redirectLe]

theorem redirectLe_total (a b : Item) : redirectLe a b = true ∨ redirectLe b a = true := by
  rw [redirectLe_iff, redirectLe_iff]
  rcases lt_trichotomy a.host b.host with h | h | h
  · exact .inl (.inl h)
  · rcases le_total b.source a.source with hs | hs
    · exact .inl (.inr ⟨h, hs⟩)
    · exact .inr (.inr ⟨h.symm, hs⟩)
  · exact .inr (.inl h)

theorem redirectLe_trans (a b c : Item) (hab : redirectLe a b = true)
    (hbc : redirectLe b c = true) : redirectLe a c = true := by
  rw [redirectLe_iff] at hab hbc ⊢
  rcases hab with hab | ⟨hab, hs⟩
  · rcases hbc with hbc | ⟨hbc, -⟩
    · exact .inl (lt_trans hab hbc)
    · exact .inl (hbc ▸ hab)
  · rcases hbc with hbc | ⟨hbc, hs'⟩
    · exact .inl (hab ▸ hbc)
    · exact .inr ⟨hab.trans hbc, le_trans hs' hs⟩

theorem redirectLe_host {a b : Item} (h : redirectLe a b = true) : a.host ≤ b.host := by
  rcases redirectLe_iff.mp h with h | ⟨h, -⟩
  · exact le_of_lt h
  · exact le_of_eq h

theorem firstPerHost_subset {previous : Option String} {items : List Item} {i : Item}
    (h : i ∈ firstPerHost previous items) : i ∈ items := by
  induction items generalizing previous with
  | nil => cases h
  | cons k ks ih =>
    rw [firstPerHost] at h
    split at h
    · exact List.mem_cons_of_mem k (ih h)
    · rcases List.mem_cons.mp h with rfl | h
      · exact List.mem_cons_self
      · exact List.mem_cons_of_mem k (ih h)

/-- No item behind the first one for a host is for that host. -/
theorem firstPerHost_above {host : String} {items : List Item}
    (hs : items.Pairwise (redirectLe · · = true)) (hle : ∀ j ∈ items, host ≤ j.host) :
    ∀ i ∈ firstPerHost (some host) items, host < i.host := by
  induction items generalizing host with
  | nil => intro i hi; cases hi
  | cons k ks ih =>
    obtain ⟨hk, hks⟩ := List.pairwise_cons.mp hs
    have hkle : host ≤ k.host := hle k List.mem_cons_self
    intro i hi
    rw [firstPerHost] at hi
    split at hi
    · exact ih hks (fun j hj => hle j (List.mem_cons_of_mem k hj)) i hi
    · rename_i hne
      have hlt : host < k.host := lt_of_le_of_ne hkle fun he => hne (congrArg some he)
      rcases List.mem_cons.mp hi with rfl | hi
      · exact hlt
      · exact lt_trans hlt (ih hks (fun j hj => redirectLe_host (hk j hj)) i hi)

theorem firstPerHost_ordered {previous : Option String} {items : List Item}
    (hs : items.Pairwise (redirectLe · · = true)) :
    (firstPerHost previous items).Pairwise (·.host < ·.host) := by
  induction items generalizing previous with
  | nil => exact .nil
  | cons k ks ih =>
    obtain ⟨hk, hks⟩ := List.pairwise_cons.mp hs
    rw [firstPerHost]
    split
    · exact ih hks
    · exact List.pairwise_cons.mpr
        ⟨firstPerHost_above hks fun j hj => redirectLe_host (hk j hj), ih hks⟩

/-- What comes out for a host is the first of all items for it. -/
theorem firstPerHost_head {previous : Option String} {items : List Item}
    (hs : items.Pairwise (redirectLe · · = true))
    (hp : ∀ host, previous = some host → ∀ j ∈ items, host ≤ j.host) :
    ∀ i ∈ firstPerHost previous items, (items.filter (·.host == i.host)).head? = some i := by
  induction items generalizing previous with
  | nil => intro i hi; cases hi
  | cons k ks ih =>
    obtain ⟨hk, hks⟩ := List.pairwise_cons.mp hs
    have hkhost : ∀ j ∈ ks, k.host ≤ j.host := fun j hj => redirectLe_host (hk j hj)
    intro i hi
    rw [firstPerHost] at hi
    split at hi
    · -- `k` is passed over, and what comes out later is for a later host
      rename_i he
      have habove := firstPerHost_above hks hkhost i (he ▸ hi)
      rw [List.filter_cons_of_neg (by simpa using ne_of_lt habove)]
      exact ih hks (fun host hhost j hj => hp host hhost j (List.mem_cons_of_mem k hj)) i hi
    · rcases List.mem_cons.mp hi with rfl | hi
      · simp
      · have habove := firstPerHost_above hks hkhost i hi
        rw [List.filter_cons_of_neg (by simpa using ne_of_lt habove)]
        refine ih hks (fun host hhost => ?_) i hi
        cases hhost
        exact hkhost

/-- Of the items for its host, the first one is of the source added last. -/
theorem firstPerHost_last {previous : Option String} {items : List Item}
    (hs : items.Pairwise (redirectLe · · = true))
    (hp : ∀ host, previous = some host → ∀ j ∈ items, host ≤ j.host) :
    ∀ i ∈ firstPerHost previous items, ∀ j ∈ items, j.host = i.host → j.source ≤ i.source := by
  intro i hi j hj hh
  have hfirst := firstPerHost_head hs hp i hi
  have hmem : j ∈ items.filter (·.host == i.host) := by simp [hj, hh]
  have hordered := hs.filter (·.host == i.host)
  obtain ⟨rest, heq⟩ := List.head?_eq_some_iff.mp hfirst
  rw [heq] at hmem hordered
  rcases List.mem_cons.mp hmem with rfl | hmem
  · exact le_refl _
  · rcases redirectLe_iff.mp ((List.pairwise_cons.mp hordered).1 j hmem) with hlt | ⟨-, hle⟩
    · exact absurd hh (ne_of_lt hlt).symm
    · exact hle

/-- Every host but the previous one has its first item. -/
theorem firstPerHost_complete {previous : Option String} {items : List Item} {j : Item}
    (hj : j ∈ items) (hp : previous ≠ some j.host) :
    ∃ i ∈ firstPerHost previous items, i.host = j.host := by
  induction items generalizing previous with
  | nil => cases hj
  | cons k ks ih =>
    rw [firstPerHost]
    split
    · rename_i he
      rcases List.mem_cons.mp hj with rfl | hj
      · exact absurd he hp
      · exact ih hj hp
    · by_cases hk : k.host = j.host
      · exact ⟨k, List.mem_cons_self, hk⟩
      · rcases List.mem_cons.mp hj with rfl | hj
        · exact absurd rfl hk
        · obtain ⟨i, hi, hh⟩ := ih hj fun he => hk (Option.some.inj he)
          exact ⟨i, List.mem_cons_of_mem k hi, hh⟩

/-! ### What each pass finds -/

variable (s : Store)

theorem inForce_iff {i : Item} : s.InForce i ↔ i ∈ s.items ∧ s.isActive i = true := by
  simp only [isActive, Bool.and_eq_true, Bool.or_eq_true, beq_iff_eq, List.any_eq_true]
  constructor
  · rintro ⟨hmem, hen, hgen, howner⟩
    exact ⟨hmem, ⟨hen, hgen⟩, howner⟩
  · rintro ⟨hmem, ⟨hen, hgen⟩, howner⟩
    exact ⟨hmem, hen, hgen, howner⟩

theorem mem_activeItems {k : Kind} {i : Item} :
    i ∈ s.activeItems k ↔ s.InForce i ∧ i.kind = k.number := by
  simp only [activeItems, List.mem_filter, Item.hasKind, inForce_iff, Bool.and_eq_true,
    beq_iff_eq, and_assoc, and_comm (a := i.kind = k.number)]

theorem blockedRows_ordered : s.blockedRows.Pairwise (·.host < ·.host) :=
  List.pairwise_map.mpr (distinct_ordered _)

theorem mem_blockedRows {row : HostRow} :
    row ∈ s.blockedRows ↔ ∃ host, s.Blocks host ∧ row = { host, kind := Kind.blocked.number } := by
  simp only [blockedRows, List.mem_map, mem_distinct, mem_activeItems]
  constructor
  · rintro ⟨host, ⟨i, ⟨hi, hk⟩, hh⟩, rfl⟩
    exact ⟨host, ⟨i, hi, hk, hh⟩, rfl⟩
  · rintro ⟨host, ⟨i, hi, hk, hh⟩, rfl⟩
    exact ⟨host, ⟨i, ⟨hi, hk⟩, hh⟩, rfl⟩

/-- Patterns that are put aside one after the other are all there if none comes twice. -/
theorem foldl_addPattern {patterns more : List (List Char)} (h : (patterns ++ more).Nodup) :
    more.foldl addPattern patterns = patterns ++ more := by
  induction more generalizing patterns with
  | nil => exact (List.append_nil patterns).symm
  | cons pattern more ih =>
    have hnew : pattern ∉ patterns := fun hmem =>
      (List.nodup_append.mp h).2.2 pattern hmem pattern List.mem_cons_self rfl
    rw [List.append_cons] at h ⊢
    rw [List.foldl_cons, addPattern, if_neg hnew, ih h]

/-- No pattern is lost by its rewriting. -/
theorem allowPatterns_eq : s.allowPatterns =
    (distinct ((s.activeItems .allowed).map (·.host))).map fun p => Host.toLike p.toList := by
  refine foldl_addPattern (List.pairwise_map.mpr ((distinct_ordered _).imp fun hlt he => ?_))
  exact ne_of_lt hlt (String.toList_inj.mp (Host.toLike_injective he))

/-- A host is carved out exactly when some item allows it. -/
theorem isAllowedBy_allowPatterns (host : String) :
    isAllowedBy s.allowPatterns host = true ↔ s.Allows host := by
  simp only [isAllowedBy, allowPatterns_eq, List.any_map, List.any_eq_true, mem_distinct,
    List.mem_map, mem_activeItems, Function.comp_apply, Host.isLike_toLike]
  constructor
  · rintro ⟨p, ⟨i, ⟨hi, hk⟩, rfl⟩, hc⟩
    exact ⟨i, hi, hk, hc⟩
  · rintro ⟨i, hi, hk, hc⟩
    exact ⟨i.host, ⟨i, ⟨hi, hk⟩, rfl⟩, hc⟩

theorem isAllowedBy_eq_false (host : String) :
    isAllowedBy s.allowPatterns host = false ↔ ¬s.Allows host := by
  rw [← isAllowedBy_allowPatterns, Bool.not_eq_true]

theorem tryPatterns_cons (p : List Char) (patterns : List (List Char)) (host : String) :
    tryPatterns (p :: patterns) host =
      if Host.isTooLong p then none
      else if Host.isLike p host.toList then some true
      else tryPatterns patterns host := by
  rw [tryPatterns, List.anyM_cons, Host.like]
  cases Host.isTooLong p with
  | true => rfl
  | false => cases Host.isLike p host.toList <;> rfl

theorem isAllowedBy_cons (p : List Char) (patterns : List (List Char)) (host : String) :
    isAllowedBy (p :: patterns) host =
      (Host.isLike p host.toList || isAllowedBy patterns host) := rfl

/-- An answer is the one that the patterns have without a limit. -/
theorem tryPatterns_some {patterns : List (List Char)} {host : String} {matched : Bool}
    (h : tryPatterns patterns host = some matched) : isAllowedBy patterns host = matched := by
  induction patterns with
  | nil => exact Option.some.inj h
  | cons p patterns ih =>
    rw [tryPatterns_cons] at h
    rw [isAllowedBy_cons]
    split at h
    · cases h
    · split at h
      · rename_i hm
        rw [hm, Bool.true_or]
        exact Option.some.inj h
      · rename_i hm
        rw [Bool.eq_false_iff.mpr hm, Bool.false_or]
        exact ih h

/-- There is no answer exactly where a pattern is too long and none before it matches. -/
theorem tryPatterns_eq_none {patterns : List (List Char)} {host : String} :
    tryPatterns patterns host = none ↔ ∃ front p back, patterns = front ++ p :: back ∧
      Host.isTooLong p = true ∧ isAllowedBy front host = false := by
  constructor
  · intro h
    induction patterns with
    | nil => cases h
    | cons q patterns ih =>
      rw [tryPatterns_cons] at h
      split at h
      · rename_i hlong
        exact ⟨[], q, patterns, rfl, hlong, rfl⟩
      · split at h
        · cases h
        · rename_i hm
          obtain ⟨front, p, back, rfl, hlong, hfront⟩ := ih h
          refine ⟨q :: front, p, back, rfl, hlong, ?_⟩
          rw [isAllowedBy_cons, Bool.eq_false_iff.mpr hm, Bool.false_or]
          exact hfront
  · rintro ⟨front, p, back, rfl, hlong, hfront⟩
    induction front with
    | nil => rw [List.nil_append, tryPatterns_cons, if_pos hlong]
    | cons q front ih =>
      rw [isAllowedBy_cons, Bool.or_eq_false_iff] at hfront
      rw [List.cons_append, tryPatterns_cons, hfront.1, if_neg Bool.false_ne_true, ih hfront.2,
        ite_self]

theorem mem_redirectItems {i : Item} :
    i ∈ s.redirectItems s.allowPatterns ↔ s.Redirects i.host i ∧ ¬s.Allows i.host := by
  simp only [redirectItems, mem_sortBy, List.mem_filter, mem_activeItems, Bool.and_eq_true,
    Bool.not_eq_true', isAllowedBy_eq_false]
  constructor
  · rintro ⟨⟨hi, hk⟩, ht, hna⟩
    exact ⟨⟨hi, hk, ht, rfl⟩, hna⟩
  · rintro ⟨⟨hi, hk, ht, -⟩, hna⟩
    exact ⟨⟨hi, hk⟩, ht, hna⟩

theorem redirectItems_ordered :
    (s.redirectItems s.allowPatterns).Pairwise (redirectLe · · = true) :=
  sortBy_pairwise redirectLe_total redirectLe_trans _

/-- The redirects that get a row. -/
def chosen : List Item := firstPerHost none (s.redirectItems s.allowPatterns)

theorem chosen_ordered : s.chosen.Pairwise (·.host < ·.host) :=
  firstPerHost_ordered s.redirectItems_ordered

theorem chosen_due {i : Item} (h : i ∈ s.chosen) :
    s.LastRedirects i.host i ∧ ¬s.Allows i.host := by
  obtain ⟨hr, hna⟩ := (mem_redirectItems s).mp (firstPerHost_subset h)
  refine ⟨⟨hr, fun j hj => ?_⟩, hna⟩
  have hmem : j ∈ s.redirectItems s.allowPatterns := by
    rw [mem_redirectItems, hj.forHost]
    exact ⟨hj, hna⟩
  exact firstPerHost_last s.redirectItems_ordered (fun _ h => by cases h) i h j hmem hj.forHost

theorem chosen_complete {host : String} {i : Item} (hr : s.Redirects host i)
    (hna : ¬s.Allows host) : ∃ j ∈ s.chosen, j.host = host := by
  have hmem : i ∈ s.redirectItems s.allowPatterns := by
    rw [mem_redirectItems, hr.forHost]
    exact ⟨hr, hna⟩
  have hp : none ≠ some i.host := fun h => by cases h
  obtain ⟨j, hj, hh⟩ := firstPerHost_complete hmem hp
  exact ⟨j, hj, hh.trans hr.forHost⟩

/-! ### The passes together -/

/-- The blocked rows that no pattern carves out. -/
def carved : List HostRow := s.blockedRows.filter (!isAllowedBy s.allowPatterns ·.host)

theorem carved_ordered : s.carved.Pairwise (·.host < ·.host) :=
  s.blockedRows_ordered.filter _

theorem mem_carved {row : HostRow} :
    row ∈ s.carved ↔
      ∃ host, s.Blocks host ∧ ¬s.Allows host ∧ row = { host, kind := Kind.blocked.number } := by
  simp only [carved, List.mem_filter, mem_blockedRows, Bool.not_eq_true', isAllowedBy_eq_false]
  constructor
  · rintro ⟨⟨host, hb, rfl⟩, hna⟩
    exact ⟨host, hb, hna, rfl⟩
  · rintro ⟨host, hb, hna, rfl⟩
    exact ⟨⟨host, hb, rfl⟩, hna⟩

theorem rebuild_table :
    s.rebuild.2 = (s.chosen.map redirectRow).foldl (fun t r => insertRow r t) s.carved := by
  rw [List.foldl_map]
  rfl

theorem redirectRows_ordered : (s.chosen.map redirectRow).Pairwise (·.host < ·.host) :=
  List.pairwise_map.mpr s.chosen_ordered

/-- The rows of a rebuilt table: the chosen redirects, and the blocks of hosts without one. -/
theorem mem_rebuild {row : HostRow} :
    row ∈ s.rebuild.2 ↔ (∃ i ∈ s.chosen, redirectRow i = row) ∨
      (row ∈ s.carved ∧ ∀ i ∈ s.chosen, i.host ≠ row.host) := by
  rw [rebuild_table, mem_foldl_insertRow s.redirectRows_ordered s.carved_ordered]
  simp only [List.mem_map, forall_exists_index, and_imp, forall_apply_eq_imp_iff₂]
  rfl

/-- **A rebuild makes the table that the rule calls for**, whatever the store holds. -/
theorem rebuild_tabulates : s.Tabulates s.rebuild.2 where
  ordered := by
    rw [rebuild_table]
    exact foldl_insertRow_ordered _ s.carved_ordered
  due := by
    intro row hrow
    rcases (mem_rebuild s).mp hrow with ⟨i, hi, rfl⟩ | ⟨hrow, hnone⟩
    · obtain ⟨hlast, hna⟩ := s.chosen_due hi
      exact .redirected hna hlast
    · obtain ⟨host, hb, hna, rfl⟩ := (mem_carved s).mp hrow
      refine .blocked hna (fun i hi => ?_) hb
      obtain ⟨j, hj, hh⟩ := s.chosen_complete hi hna
      exact hnone j hj hh
  complete := by
    intro host hna hcalled
    by_cases hr : ∃ i ∈ s.chosen, i.host = host
    · obtain ⟨i, hi, hh⟩ := hr
      exact ⟨redirectRow i, (mem_rebuild s).mpr (.inl ⟨i, hi, rfl⟩), hh⟩
    · rcases hcalled with ⟨i, hi⟩ | hb
      · exact absurd (s.chosen_complete hi hna) hr
      · refine ⟨_, (mem_rebuild s).mpr (.inr ⟨(mem_carved s).mpr ⟨host, hb, hna, rfl⟩, ?_⟩), rfl⟩
        exact fun i hi hh => hr ⟨i, hi, hh⟩

/-! ### Whether it can be made -/

/-- A host that the patterns are tried on: one that is blocked, or that an item redirects whose
source need not be enabled. -/
def Tried (host : String) : Prop :=
  s.Blocks host ∨ ∃ i ∈ s.items, s.isTried i = true ∧ i.host = host

/-- A host comes upon a pattern that is too long: of the patterns whose texts come before, none
matches it. -/
structure Stuck (host : String) : Prop where
  tried : s.Tried host
  pattern : ∃ i, s.InForce i ∧ i.kind = Kind.allowed.number ∧
    Host.isTooLong (Host.toLike i.host.toList) = true ∧
    ∀ j, s.InForce j → j.kind = Kind.allowed.number → j.host < i.host →
      ¬Host.Covers j.host.toList host.toList

theorem mem_triedHosts {host : String} : host ∈ s.triedHosts ↔ s.Tried host := by
  simp only [triedHosts, Tried, List.mem_append, List.mem_map, mem_blockedRows, List.mem_filter,
    and_assoc]
  refine or_congr_left ⟨?_, fun hb => ⟨_, ⟨host, hb, rfl⟩, rfl⟩⟩
  rintro ⟨_, ⟨host, hb, rfl⟩, rfl⟩
  exact hb

/-- The texts of the patterns, in their order. -/
def allowList : List String := distinct ((s.activeItems .allowed).map (·.host))

theorem mem_allowList {text : String} : text ∈ s.allowList ↔
    ∃ i, s.InForce i ∧ i.kind = Kind.allowed.number ∧ i.host = text := by
  simp only [allowList, mem_distinct, List.mem_map, mem_activeItems, and_assoc]

/-- Some patterns match a host exactly when one of their texts covers it. -/
theorem isAllowedBy_map {texts : List String} {host : String} :
    isAllowedBy (texts.map fun p => Host.toLike p.toList) host = false ↔
      ∀ text ∈ texts, ¬Host.Covers text.toList host.toList := by
  simp only [isAllowedBy, List.any_map, List.any_eq_false, Function.comp_apply,
    Host.isLike_toLike]

theorem tryPatterns_allowPatterns {host : String} (ht : s.Tried host) :
    tryPatterns s.allowPatterns host = none ↔ s.Stuck host := by
  rw [tryPatterns_eq_none, allowPatterns_eq]
  have hordered : s.allowList.Pairwise (· < ·) := distinct_ordered _
  constructor
  · rintro ⟨front, p, back, hcat, hp, hfront⟩
    obtain ⟨front, rest, htexts, rfl, hrest⟩ := List.map_eq_append_iff.mp hcat
    obtain ⟨text, back, rfl, rfl, -⟩ := List.map_eq_cons_iff.mp hrest
    have htexts : s.allowList = front ++ text :: back := htexts
    obtain ⟨i, hi, hkind, rfl⟩ := s.mem_allowList.mp
      (htexts ▸ List.mem_append_right front List.mem_cons_self)
    refine ⟨ht, i, hi, hkind, hp, fun j hj hjkind hlt => isAllowedBy_map.mp hfront _ ?_⟩
    -- what comes before the pattern's text stands in front of it
    have hmem := s.mem_allowList.mpr ⟨j, hj, hjkind, rfl⟩
    rw [htexts] at hmem hordered
    rcases List.mem_append.mp hmem with hmem | hmem
    · exact hmem
    · obtain ⟨hback, -⟩ := List.pairwise_cons.mp (List.pairwise_append.mp hordered).2.1
      rcases List.mem_cons.mp hmem with heq | hmem
      · exact absurd hlt (heq ▸ lt_irrefl _)
      · exact absurd hlt (not_lt_of_gt (hback _ hmem))
  · rintro ⟨-, i, hi, hkind, hp, hnone⟩
    obtain ⟨front, back, htexts⟩ := List.append_of_mem (s.mem_allowList.mpr ⟨i, hi, hkind, rfl⟩)
    refine ⟨front.map fun p => Host.toLike p.toList, Host.toLike i.host.toList,
      back.map fun p => Host.toLike p.toList, ?_, hp, isAllowedBy_map.mpr fun text htext => ?_⟩
    · show s.allowList.map _ = _
      rw [htexts, List.map_append, List.map_cons]
    · obtain ⟨j, hj, hjkind, rfl⟩ := s.mem_allowList.mp (htexts ▸ List.mem_append_left _ htext)
      rw [htexts] at hordered
      exact hnone j hj hjkind
        ((List.pairwise_append.mp hordered).2.2 _ htext _ List.mem_cons_self)

/-- **The table cannot be made exactly where a host comes upon a pattern that is too long.** -/
theorem isRefused_iff : s.isRefused = true ↔ ∃ host, s.Stuck host := by
  simp only [isRefused, List.any_eq_true, Option.isNone_iff_eq_none, mem_triedHosts]
  constructor
  · rintro ⟨host, ht, hnone⟩
    exact ⟨host, (s.tryPatterns_allowPatterns ht).mp hnone⟩
  · rintro ⟨host, hs⟩
    exact ⟨host, hs.tried, (s.tryPatterns_allowPatterns hs.tried).mpr hs⟩

/-- A blocked host gets stuck where too many stars are the only pattern. -/
theorem stuck_of_stars {host : String} {i : Item} (hb : s.Blocks host) (hi : s.InForce i)
    (hkind : i.kind = Kind.allowed.number) (hstars : i.host = String.ofList (Host.stars 50001))
    (honly : ∀ j, s.InForce j → j.kind = Kind.allowed.number → j.host = i.host) :
    s.Stuck host := by
  refine ⟨.inl hb, i, hi, hkind, ?_, fun j hj hjkind hlt => ?_⟩
  · rw [hstars, String.toList_ofList, Host.isTooLong_stars]
    rfl
  · rw [honly j hj hjkind] at hlt
    exact absurd hlt (lt_irrefl _)

/-! ### A sync -/

/-- The store after a sync: the table is a new one if it could be made. -/
def synced : Store := { s with table := if s.isRefused then s.table else s.rebuild.2 }

variable {s}

theorem sync_refused (h : s.isRefused = true) : s.sync = .error (.storage .patternTooLong) := by
  rw [sync, if_pos h]

/-- The table has no part in whether it can be made. -/
theorem synced_isRefused (s : Store) : s.synced.isRefused = s.isRefused := rfl

theorem synced_refused (h : s.isRefused = true) : s.synced = s := by
  rw [synced, if_pos h]

theorem sync_made (h : s.isRefused = false) : s.sync = .ok (s.rebuild.1, s.synced) := by
  rw [sync, synced, h]
  rfl

theorem synced_made (h : s.isRefused = false) : s.synced = { s with table := s.rebuild.2 } := by
  rw [synced, h]
  rfl

theorem synced_table (h : s.isRefused = false) : s.synced.table = s.rebuild.2 :=
  congrArg table (synced_made h)

/-- A sync that is not refused is one that was made. -/
theorem sync_ok {summary : Summary} {s' : Store} (h : s.sync = .ok (summary, s')) :
    s.isRefused = false ∧ summary = s.rebuild.1 ∧ s' = s.synced := by
  cases hr : s.isRefused with
  | true =>
    rw [sync_refused hr] at h
    cases h
  | false =>
    rw [sync_made hr] at h
    cases h
    exact ⟨rfl, rfl, rfl⟩

variable (s)

/-- **After a sync the table says exactly what the items in force call for**, and nothing else
of the store is changed. Where no source redirects a host to two targets it is the only table
that does. A sync fails exactly where a host comes upon a pattern that is too long, and then the
table is no new one. -/
theorem sync_table :
    ((∃ host, s.Stuck host) → s.sync = .error (.storage .patternTooLong)) ∧
      ((¬∃ host, s.Stuck host) → ∃ summary s', s.sync = .ok (summary, s') ∧
        s.Tabulates s'.table ∧ s' = { s with table := s'.table } ∧
        (s.Untied → ∀ table, s.Tabulates table → table = s'.table)) := by
  rw [← isRefused_iff]
  refine ⟨sync_refused, fun hmade => ?_⟩
  have hmade := Bool.eq_false_iff.mpr hmade
  refine ⟨s.rebuild.1, s.synced, sync_made hmade, ?_, rfl, fun hu table ht => ?_⟩
  · rw [synced_table hmade]
    exact s.rebuild_tabulates
  · rw [synced_table hmade]
    exact Tabulates.unique hu ht s.rebuild_tabulates

/-- A store with one list that blocks a host and allows what a pattern matches. -/
def listing (host pattern : String) : Store :=
  { empty with
    sources := [userSource, { id := 2, label := "hosts", location := "/lists/hosts" }]
    lastId := 2
    items := [.ofEntry 2 0 (.blocked host), .ofEntry 2 0 (.allowed pattern)] }

theorem listing_inForce {host pattern : String} {i : Item}
    (h : i ∈ (listing host pattern).items) : (listing host pattern).InForce i := by
  obtain rfl | rfl := List.mem_pair.mp h
  · exact ⟨h, rfl, .inl rfl, _, .tail _ (.head _), rfl, rfl⟩
  · exact ⟨h, rfl, .inl rfl, _, .tail _ (.head _), rfl, rfl⟩

theorem listing_blocks (host pattern : String) : (listing host pattern).Blocks host :=
  ⟨_, listing_inForce List.mem_cons_self, rfl, rfl⟩

/-- A host that is matched with too many stars gets stuck. -/
theorem listing_stars (host : String) :
    (listing host (String.ofList (Host.stars 50001))).sync = .error (.storage .patternTooLong) := by
  refine sync_refused ((isRefused_iff _).mpr ⟨host, ?_⟩)
  refine stuck_of_stars _ (listing_blocks host _)
    (listing_inForce (List.mem_cons_of_mem _ List.mem_cons_self)) rfl rfl fun j hj hkind => ?_
  obtain rfl | rfl := List.mem_pair.mp hj.stored
  · cases hkind
  · rfl

/-- A blocked host that no pattern means has no row if what stands before its zero is a pattern;
and with too many stars, which mean every host, no table can be made. -/
theorem sync_past_zero :
    ((listing "a\x00b" "a").Blocks "a\x00b" ∧ ¬Host.Matches "a".toList "a\x00b".toList ∧
      (listing "a\x00b" "a").sync.map (·.2.table) = .ok []) ∧
    Host.Matches (Host.stars 50001) "a".toList ∧
      (listing "a" (String.ofList (Host.stars 50001))).sync = .error (.storage .patternTooLong) :=
  ⟨⟨listing_blocks _ _, Host.not_matches_past_zero, by decide +kernel⟩,
    Host.matches_stars 50000 _, listing_stars "a"⟩

end Sinkhole.Store
