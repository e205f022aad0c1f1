import Sinkhole.Proofs.History.Ledger

/-! The items in force are the ones that the ledger tells of.

Full runs stage under the generation after the active one, and so do runs over one
source; runs that are stopped leave items there, and edits come in between. `Tallies`
is what all of this keeps: every generation but the active one and the next is empty,
the active one is numbered by the full runs that took effect, and in it a source has the
entries of what was taken over last and nothing else. One lemma says so of each kind of
act, and `course_tallies` of every history. -/
namespace Sinkhole.History

open Update (Setup Visit)
open Work (upon)

variable {σ : Type}

/-- The store has the items that the ledger tells of. -/
structure Tallies (l : Ledger σ) (s : Store) : Prop where
  numbered : s.Numbered
  /-- Generations are counted by the runs over all sources that committed, and by those that had
  the table left to make when they failed. -/
  active : s.active = l.commits + l.untabled
  generation : ∀ i ∈ s.items, i.source ≠ Source.userId →
    i.generation = s.active ∨ i.generation = s.active + 1
  /-- A source's items in force are the entries of what was taken over last. -/
  items : ∀ id, id ≠ Source.userId →
    s.itemsOf id s.active = (l.account id).items id s.active
  user : s.owned Source.userId =
    l.user.map (Item.ofEntry Source.userId Store.userGeneration)
  unknown : ∀ id, s.knows id = false → l.account id = {}
  /-- What cannot be fetched was never taken over. -/
  unfetchable : ∀ source ∈ s.sources, source.isFetchable = false →
    (l.account source.id).latest = none

namespace Tallies

variable {l l' : Ledger σ} {s s' : Store}

theorem active_eq (h : Tallies l s) : s.active = l.adoptions := h.active

theorem empty : Tallies ({} : Ledger σ) Store.empty where
  numbered := Store.empty_numbered
  active := rfl
  generation := fun i hi => by simp [Store.empty] at hi
  items := fun _ _ => rfl
  user := rfl
  unknown := fun _ _ => rfl
  unfetchable := fun _ _ _ => rfl

/-! ### Edits -/

/-- What is done to sources alone: none of them moves, and one that is new had no account. -/
theorem of_sources (h : Tallies l s) (hn : s'.Numbered) (hitems : s'.items = s.items)
    (hactive : s'.active = s.active) (hcount : l'.adoptions = l.adoptions)
    (huser : l'.user = l.user)
    (hlatest : ∀ id, (l'.account id).latest = (l.account id).latest)
    (hunknown : ∀ id, s'.knows id = false → l'.account id = {})
    (hsources : ∀ source ∈ s'.sources, s.knows source.id = false ∨
      ∃ old ∈ s.sources, old.id = source.id ∧ old.location = source.location) :
    Tallies l' s' where
  numbered := hn
  active := by rw [hactive, h.active_eq, ← hcount, Ledger.adoptions, Int.natCast_add]
  generation := by
    rw [hitems, hactive]
    exact h.generation
  items := by
    intro id hid
    rw [Store.itemsOf, hitems, hactive, Account.items, hlatest]
    exact h.items id hid
  user := by
    rw [Store.owned, hitems, huser]
    exact h.user
  unknown := hunknown
  unfetchable := by
    intro source hs hf
    rw [hlatest]
    rcases hsources source hs with hnew | ⟨old, hold, hid, hlocation⟩
    · rw [h.unknown source.id hnew]
    · rw [← hid]
      exact h.unfetchable old hold ((Source.isFetchable_congr hlocation).trans hf)

/-- What is done to a known source, which stays where it is. -/
theorem of_modify (h : Tallies l s) {id : Int} {f : Source → Source}
    (hf : ∀ x, (f x).id = x.id ∧ (f x).location = x.location)
    (hs : s'.sources = (s.modifySource id f).sources) (hitems : s'.items = s.items)
    (hactive : s'.active = s.active) (hlast : s.lastId ≤ s'.lastId) : Tallies l s' := by
  have hids : s'.sources.map (·.id) = s.sources.map (·.id) := by
    rw [hs]
    exact s.modifySource_map fun x => (hf x).1
  refine h.of_sources (h.numbered.of_ids hids hlast) hitems hactive rfl rfl (fun _ => rfl)
    (fun id hid => h.unknown id ?_) fun source hsource => ?_
  · rw [← Store.knows_congr hids, hid]
  · rw [hs] at hsource
    obtain ⟨old, hold, rfl | rfl⟩ := s.of_mem_modifySource hsource
    · exact .inr ⟨source, hold, rfl, rfl⟩
    · exact .inr ⟨old, hold, (hf old).1.symm, (hf old).2.symm⟩

theorem register (h : Tallies l s) (u : Updater σ) (hu : u.store = s) (r : Registration) :
    Tallies (l.recordRole u r) (s.upsert r).2 := by
  subst hu
  have hn := Store.upsert_numbered h.numbered r
  unfold Ledger.recordRole
  unfold Store.upsert at hn ⊢
  cases hfind : u.store.sources.find? (·.location == Store.placeOf r) with
  | none =>
    rw [hfind] at hn
    refine h.of_sources hn rfl rfl rfl rfl (fun _ => rfl) (fun id hid => h.unknown id ?_)
      fun source hs => ?_
    · simp only [Store.knows, List.any_append, Bool.or_eq_false_iff] at hid
      exact hid.1
    · rcases List.mem_append.mp hs with hold | hnew
      · exact .inr ⟨source, hold, rfl, rfl⟩
      · -- an id that was not given out yet
        refine .inl (Bool.eq_false_iff.mpr fun hk => ?_)
        obtain ⟨old, hold, hid⟩ := List.mem_map.mp (Store.knows_iff.mp hk)
        have hgiven := h.numbered.given old hold
        have hbeyond : source.id = u.store.lastId + 1 := by
          simp [List.mem_singleton.mp hnew, Store.newSource]
        omega
  | some old =>
    have hedit : Tallies l
        { u.store.modifySource old.id (Store.refreshed · r) with lastId := u.store.lastId + 1 } :=
      h.of_modify (f := (Store.refreshed · r)) (fun _ => ⟨rfl, rfl⟩) rfl rfl rfl
        (show u.store.lastId ≤ u.store.lastId + 1 by omega)
    dsimp only
    split
    · exact hedit
    · refine hedit.of_sources hedit.numbered rfl rfl rfl rfl (fun id => ?_) (fun id hid => ?_)
        fun source hs => .inr ⟨source, hs, rfl, rfl⟩
      · simp only [Ledger.amend]
        split <;> rfl
      · have hnone := hedit.unknown id hid
        simp [Ledger.amend, hnone]

theorem setEnabled (h : Tallies l s) {id : Int} {enabled : Bool}
    (hset : s.setEnabled id enabled = .ok s') : Tallies l s' := by
  unfold Store.setEnabled at hset
  split at hset
  · injection hset with hs'
    subst hs'
    exact h.of_modify (f := ({ · with enabled })) (fun _ => ⟨rfl, rfl⟩) rfl rfl rfl (Int.le_refl _)
  · cases hset

/-- What is left when all items of a source are taken out. -/
theorem items_cleared (h : Tallies l s) (id : Int) {x : Int} (hx : x ≠ Source.userId) :
    (s.clearItems id none).itemsOf x s.active =
      ((l.amend id fun _ => {}).account x).items x s.active := by
  by_cases hid : x = id
  · subst hid
    rw [s.clearAll_itemsOf]
    simp [Ledger.amend, Account.items]
  · rw [(s.clearAll_changes id).itemsOf_of_ne hid]
    simp only [Ledger.amend, hid, if_false]
    exact h.items x hx

/-- With the source goes its account. -/
theorem remove (h : Tallies l s) {id : Int} (hremove : s.remove id = .ok s') :
    Tallies (l.amend id fun _ => {}) s' := by
  have hn := Store.remove_numbered h.numbered hremove
  unfold Store.remove at hremove
  split at hremove
  · cases hremove
  rename_i huser
  split at hremove
  · injection hremove with hs'
    have hitems : s.items.filter (·.source != id) = (s.clearItems id none).items :=
      List.filter_congr fun i _ => by simp [bne]
    rw [hitems] at hs'
    subst hs'
    refine ⟨hn, h.active, fun i hi => h.generation i (List.mem_of_mem_filter hi),
      fun x hx => h.items_cleared id hx, ?_, fun x hx => ?_, fun source hs hf => ?_⟩
    · exact ((s.clearAll_changes id).owned_of_ne fun he => huser he.symm).trans h.user
    · by_cases hid : x = id
      · simp [Ledger.amend, hid]
      · simp only [Ledger.amend, hid, if_false]
        refine h.unknown x (Bool.eq_false_iff.mpr fun hk => ?_)
        obtain ⟨source, hs, rfl⟩ := List.mem_map.mp (Store.knows_iff.mp hk)
        have hmem : source ∈ s.sources.filter (·.id != id) := by simp [hs, hid]
        exact Bool.eq_false_iff.mp hx (Store.knows_of_mem hmem)
    · have hmem := List.mem_filter.mp hs
      have hid : source.id ≠ id := by simpa using hmem.2
      simp only [Ledger.amend, hid, if_false]
      exact h.unfetchable source hmem.1 hf
  · cases hremove

/-! ### The user's entries -/

/-- What is done to the user's items alone. -/
theorem of_user (h : Tallies l s) {user : List Entry} {items : List Item}
    (hothers : items.filter (!·.source == Source.userId) =
      s.items.filter (!·.source == Source.userId))
    (huser : items.filter (·.source == Source.userId) =
      user.map (Item.ofEntry Source.userId Store.userGeneration)) :
    Tallies { l with user } { s with items } := by
  have hchanges : Store.ChangesOnly (·.source == Source.userId) s { s with items } :=
    ⟨rfl, hothers⟩
  refine ⟨⟨h.numbered.keyed, h.numbered.given⟩, h.active, fun i hi hu => ?_, fun id hid => ?_,
    huser, h.unknown, h.unfetchable⟩
  · exact h.generation i (hchanges.mem hi (by simpa using hu)) hu
  · refine (hchanges.itemsOf_eq fun i hi => ?_).trans (h.items id hid)
    simp [(Item.isOf_iff.mp hi).1, hid]

/-- Entries for other hosts, among the items and in the ledger. -/
theorem user_filter (h : Tallies l s) (host : String) :
    (s.items.filter (!Store.isUserItemFor host ·)).filter (·.source == Source.userId) =
      (l.user.filter (·.host != host)).map
        (Item.ofEntry Source.userId Store.userGeneration) := by
  have huser := h.user
  rw [Store.owned] at huser
  rw [List.filter_comm, huser, List.filter_map]
  rfl

theorem others_filter (s : Store) (host : String) :
    (s.items.filter (!Store.isUserItemFor host ·)).filter (!·.source == Source.userId) =
      s.items.filter (!·.source == Source.userId) := by
  refine filter_filter_of_imp (fun i hi => ?_) s.items
  have hne : i.source ≠ Source.userId := by simpa using hi
  simp [Store.isUserItemFor, hne]

theorem addUser (h : Tallies l s) {e : Entry} (hadd : s.addUser e = .ok s') :
    Tallies { l with user := l.user.filter (·.host != e.host) ++ [e] } s' := by
  unfold Store.addUser at hadd
  split at hadd
  · injection hadd with hs'
    subst hs'
    refine h.of_user ?_ ?_
    · rw [List.filter_append, others_filter]
      simp [Item.ofEntry]
    · rw [List.filter_append, h.user_filter]
      simp [Item.ofEntry]
  · cases hadd

theorem removeUser (h : Tallies l s) (host : String) :
    Tallies { l with user := l.user.filter (·.host != host) } (s.removeUser host).2 :=
  h.of_user (others_filter s host) (h.user_filter host)

/-! ### Checks -/

theorem check (h : Tallies l s) (hc : s'.unprobed = s.unprobed) : Tallies l s' := by
  have hitems : s'.unprobed.items = s.unprobed.items := by rw [hc]
  have hactive : s'.unprobed.active = s.unprobed.active := by rw [hc]
  have hlast : s'.unprobed.lastId = s.unprobed.lastId := by rw [hc]
  have hids : s'.sources.map (·.id) = s.sources.map (·.id) := by
    have hsources := congrArg (·.sources.map (·.id)) hc
    simpa [Store.unprobed, Source.unprobed, Function.comp_def] using hsources
  refine h.of_sources (h.numbered.of_ids hids (Int.le_of_eq hlast.symm)) hitems hactive rfl rfl
    (fun _ => rfl) (fun id hid => h.unknown id ?_) fun source hs => ?_
  · rw [← Store.knows_congr hids, hid]
  · obtain ⟨old, hold, heq⟩ := Store.of_unprobed hc hs
    have hid : old.unprobed.id = source.unprobed.id := by rw [heq]
    have hlocation : old.unprobed.location = source.unprobed.location := by rw [heq]
    exact .inr ⟨old, hold, hid, hlocation⟩

/-! ### Runs that take no effect -/

/-- Sources that were cleared have lost their accounts, and nothing else that counts is
different. -/
theorem withheld (h : Tallies l s) {clearing : Bool} (hw : Update.Withheld clearing s s')
    (hn : s'.Numbered) (hcount : l'.adoptions = l.adoptions) (huser : l'.user = l.user)
    (haccount : ∀ id, l'.account id =
      if clearing && (Update.idle s).any (·.id == id) then {} else l.account id) :
    Tallies l' s' := by
  have hsources : ∀ source ∈ s'.sources, ∃ old ∈ s.sources, old.id = source.id ∧
      old.location = source.location := by
    intro source hs
    rw [hw.sources] at hs
    cases clearing with
    | false => exact ⟨source, hs, rfl, rfl⟩
    | true =>
      obtain ⟨old, hold, rfl⟩ := List.mem_map.mp hs
      exact ⟨old, hold, (Source.clearedIfIdle_map (fun _ => rfl) old).symm,
        (Source.clearedIfIdle_map (fun _ => rfl) old).symm⟩
  have hids : s'.sources.map (·.id) = s.sources.map (·.id) := by
    rw [hw.sources]
    cases clearing with
    | false => rfl
    | true =>
      rw [if_pos rfl, List.map_map]
      exact List.map_congr_left fun x _ => Source.clearedIfIdle_map (fun _ => rfl) x
  refine ⟨hn, ?_, fun i hi hu => ?_, fun id hid => ?_, ?_, fun id hid => ?_,
    fun source hs hf => ?_⟩
  · rw [hw.active, h.active_eq, ← hcount, Ledger.adoptions, Int.natCast_add]
  · rw [hw.active]
    rcases hw.added i hi with hold | hstaged
    · exact h.generation i hold hu
    · simp only [Update.isStageable, Update.isStaged, Bool.and_eq_true, beq_iff_eq] at hstaged
      exact .inr hstaged.1.1
  · rw [hw.active, haccount]
    by_cases hidle : ∃ source ∈ Update.idle s, source.id = id
    · obtain ⟨source, hs, rfl⟩ := hidle
      have hany : (Update.idle s).any (·.id == source.id) = true :=
        List.any_eq_true.mpr ⟨source, hs, beq_self_eq_true _⟩
      have hcleared := hw.idle source hs
      cases clearing with
      | false =>
        rw [if_neg Bool.false_ne_true] at hcleared
        rw [hcleared]
        simpa using h.items source.id hid
      | true =>
        rw [if_pos rfl] at hcleared
        rw [← s'.owned_itemsOf, hcleared]
        simp [hany, Account.items]
    · have hany : (Update.idle s).any (·.id == id) = false := by simpa using hidle
      rw [hw.itemsOf_of_not_idle fun source hs he => hidle ⟨source, hs, he⟩, hany, Bool.and_false]
      exact h.items id hid
  · rw [hw.owned_user, huser]
    exact h.user
  · have hbefore : s.knows id = false := by rw [← Store.knows_congr hids, hid]
    rw [haccount, h.unknown id hbefore]
    split <;> rfl
  · obtain ⟨old, hold, hid, hlocation⟩ := hsources source hs
    rw [haccount]
    split
    · rfl
    · rw [← hid]
      exact h.unfetchable old hold ((Source.isFetchable_congr hlocation).trans hf)

/-! ### Runs over all sources -/

section

variable {w : World σ} {t : Setup} {u start last : Updater σ} {visits : List (Visit σ)}

theorem not_idle_of_visit (run : Update.FullRun w t u start visits last) (hk : u.store.Keyed)
    {v : Visit σ} (hv : v ∈ visits) :
    (Update.idle u.store).any (·.id == v.source.id) = false := by
  obtain ⟨hmem, henabled, -, -⟩ := Update.mem_fetchable.mp (run.planned v hv)
  have hne := Update.FullRun.idle_ne hk hmem henabled
  simpa using hne

/-- A source that is on and was not visited is of no kind that can be fetched. -/
theorem latest_of_unvisited (h : Tallies l u.store) (run : Update.FullRun w t u start visits last)
    (hgoing : last.control.stopped = false) {id : Int} (hid : id ≠ Source.userId)
    (hon : ¬(Update.idle u.store).any (·.id == id) = true)
    (hunvisited : ∀ v ∈ visits, v.source.id ≠ id) : (l.account id).latest = none := by
  by_cases hknown : u.store.knows id = true
  · obtain ⟨source, hs, rfl⟩ := List.mem_map.mp (Store.knows_iff.mp hknown)
    refine h.unfetchable source hs (Bool.eq_false_iff.mpr fun hf => ?_)
    have huser : source.isUser = false := by simpa [Source.isUser] using hid
    have henabled : source.enabled = true := by
      refine Bool.of_not_eq_false fun hoff => hon ?_
      have hidle := (Update.mem_idle _).mpr ⟨hs, huser, hoff⟩
      exact List.any_eq_true.mpr ⟨source, hidle, beq_self_eq_true _⟩
    obtain ⟨v, hv, he⟩ :=
      run.visited hgoing (Update.mem_fetchable.mpr ⟨hs, henabled, huser, hf⟩)
    exact hunvisited v hv (congrArg Source.id he)
  · rw [h.unknown id (Bool.eq_false_iff.mpr hknown)]

/-- A source that was visited has what it took over, or what it had. -/
theorem owned_of_visit (h : Tallies l u.store) (run : Update.FullRun w t u start visits last)
    (hgoing : last.control.stopped = false) {v : Visit σ} (hv : v ∈ visits) :
    (Update.FullRun.outcome u last visits).owned v.source.id =
      ((l.account v.source.id).take (takenOn w t v)).items v.source.id (u.store.active + 1) := by
  cases hkept : v.settled.isKept with
  | true =>
    rw [run.owned_kept h.numbered.keyed hv hkept, h.items _ (run.id_ne_user v hv)]
    simp [takenOn, hkept, Account.take, Account.items, Item.within, Item.ofEntry]
  | false =>
    cases hsettled : v.settled with
    | updated learned =>
      obtain ⟨opened, ⟨d, u', hfetch, hread⟩, howned⟩ :=
        run.owned_updated h.numbered.keyed hgoing hv hsettled
      rw [howned, Setup.itemsFrom_eq, takenOn, hkept, contentAt_read hfetch hread]
      rfl
    | unchanged learned => simp [hsettled, Update.Settled.isKept] at hkept
    | failed reason => simp [hsettled, Update.Settled.isKept] at hkept
    | stopped => simp [hsettled, Update.Settled.isKept] at hkept

/-- **A run over all sources that takes effect puts in force what it took over**, and of each other
source what was in force. -/
theorem outcome (h : Tallies l u.store) (run : Update.FullRun w t u start visits last)
    (hgoing : last.control.stopped = false) (hcount : l'.adoptions = l.adoptions + 1)
    (huser : l'.user = l.user)
    (haccount : ∀ id, l'.account id = if (Update.idle u.store).any (·.id == id) then {}
      else (l.account id).take ((Update.visitTo visits id).bind (takenOn w t))) :
    Tallies l' (Update.FullRun.outcome u last visits) := by
  have hk := h.numbered.keyed
  have hids := run.outcome_ids
  have hactive : (Update.FullRun.outcome u last visits).active = u.store.active + 1 :=
    Update.adopt_active _ _ _
  have hgeneration : ∀ i ∈ (Update.FullRun.outcome u last visits).items,
      i.source ≠ Source.userId → i.generation = u.store.active + 1 :=
    fun i hi hu => Update.adopt_generation _ _ _ hi hu
  have hunvisited : ∀ id, Update.visitTo visits id = none → (l.account id).latest = none →
      (l'.account id).latest = none := by
    intro id hv hlatest
    rw [haccount, hv]
    split
    · rfl
    · exact hlatest
  refine ⟨run.outcome_numbered h.numbered, ?_, fun i hi hu => .inl ?_, fun id hid => ?_, ?_,
    fun id hid => ?_, fun source hs hf => ?_⟩
  · rw [hactive, h.active_eq, ← Int.natCast_add, ← Ledger.adoptions, hcount]
    rfl
  · rw [hactive]
    exact hgeneration i hi hu
  · rw [hactive, Store.itemsOf_eq_owned fun i hi hsource => hgeneration i hi (hsource ▸ hid)]
    cases hv : Update.visitTo visits id with
    | none =>
      have hnone := Update.visitTo_eq_none.mp hv
      have hlatest : (l'.account id).latest = none := by
        by_cases hon : (Update.idle u.store).any (·.id == id) = true
        · rw [haccount, if_pos hon]
        · exact hunvisited id hv (h.latest_of_unvisited run hgoing hid hon hnone)
      rw [run.owned_unvisited hid hnone, Account.items, hlatest]
      rfl
    | some v =>
      obtain ⟨hmem, rfl⟩ := Update.visitTo_some hv
      rw [h.owned_of_visit run hgoing hmem, haccount, not_idle_of_visit run hk hmem, hv]
      rfl
  · rw [run.owned_by_user, huser]
    exact h.user
  · have hbefore : u.store.knows id = false := by rw [← Store.knows_congr hids, hid]
    have hnone : Update.visitTo visits id = none := by
      refine Update.visitTo_eq_none.mpr fun v hv he => ?_
      have hmem := (Update.mem_fetchable.mp (run.planned v hv)).1
      rw [← he, Store.knows_of_mem hmem] at hbefore
      cases hbefore
    rw [haccount, hnone, h.unknown id hbefore]
    split <;> rfl
  · rw [run.outcome_sources hk hgoing] at hs
    obtain ⟨old, hold, rfl⟩ := List.mem_map.mp hs
    have hid : (Update.sourceAfter visits old).id = old.id :=
      Update.sourceAfter_map (fun _ _ => rfl) (fun _ => rfl) visits old
    have hlocation : (Update.sourceAfter visits old).location = old.location :=
      Update.sourceAfter_map (fun _ _ => rfl) (fun _ => rfl) visits old
    rw [Source.isFetchable_congr hlocation] at hf
    rw [hid]
    refine hunvisited old.id (Update.visitTo_eq_none.mpr fun v hv he => ?_)
      (h.unfetchable old hold hf)
    obtain ⟨hmem, -, -, hfetchable⟩ := Update.mem_fetchable.mp (run.planned v hv)
    rw [hk.eq_of_id hmem hold he, hf] at hfetchable
    cases hfetchable

end

theorem updateAll (w : World σ) (t : Setup) (task : Option String) {u : Updater σ}
    (h : Tallies l u.store) (hu : u.running = false) :
    Tallies (l.recordAll u w t task) (Update.updateAll w t task u).2.store := by
  rcases l.recordAll_cases w t task h.numbered.keyed hu with
    ⟨hcount, haccount, hw⟩ | ⟨start, visits, last, run, hgoing, hcount, haccount, hstore⟩
  · have hn := Update.updateAll_numbered w t task u h.numbered
    exact h.withheld hw hn hcount rfl haccount
  · rw [hstore]
    exact h.outcome run hgoing hcount rfl haccount

/-! ### Runs over one source -/

theorem durability (h : Tallies l s) (d : Durability) : Tallies l { s with durability := d } :=
  ⟨⟨h.numbered.keyed, h.numbered.given⟩, h.active, h.generation, h.items, h.user, h.unknown,
    h.unfetchable⟩

/-- The table has no part in it. -/
theorem synced (h : Tallies l s) : Tallies l s.synced :=
  ⟨⟨h.numbered.keyed, h.numbered.given⟩, h.active, h.generation, h.items, h.user, h.unknown,
    h.unfetchable⟩

/-- What was learned of a source has no part in it. -/
theorem updateMetadata (h : Tallies l s) (id : Int) (m : Metadata) :
    Tallies l (s.updateMetadata id m) :=
  h.of_modify (f := (Store.learned · m)) (fun _ => ⟨rfl, rfl⟩) rfl rfl rfl (Int.le_refl _)

theorem forget (h : Tallies l s) {id : Int} (hid : id ≠ Source.userId) :
    Tallies (l.amend id fun _ => {}) (Update.forget s id) := by
  have hsources : Tallies l { s with sources := (s.modifySource id Source.unread).sources } :=
    h.of_modify (f := Source.unread) (fun _ => ⟨rfl, rfl⟩) rfl rfl rfl (Int.le_refl _)
  refine ⟨⟨hsources.numbered.keyed, hsources.numbered.given⟩, h.active,
    fun i hi => h.generation i (List.mem_of_mem_filter hi), fun x hx => h.items_cleared id hx,
    ?_, fun x hx => ?_, fun source hs hf => ?_⟩
  · exact ((s.clearAll_changes id).owned_of_ne hid.symm).trans h.user
  · have hnone := hsources.unknown x hx
    simp [Ledger.amend, hnone]
  · have hlatest := hsources.unfetchable source hs hf
    simp only [Ledger.amend]
    split
    · rfl
    · exact hlatest

/-- **A source that was updated in place has what was taken over**, and every other source what it
had. -/
theorem promote (h : Tallies l s) {s₂ : Store} {source : Source} {t : Taken σ}
    (hmem : source ∈ s.sources) (huser : source.id ≠ Source.userId)
    (hfetchable : source.isFetchable = true)
    (hc : Store.ChangesOnly (·.isOf source.id (s.active + 1)) s s₂)
    (hitems : s₂.itemsOf source.id (s.active + 1) =
      t.entries.map (Item.ofEntry source.id (s.active + 1))) :
    Tallies (l.amend source.id (·.take (some t)))
      (s₂.promote source.id (s.active + 1) s.active).2 := by
  have hmoved := hc.ofSource.trans (s₂.promote_changes source.id (s.active + 1) s.active)
  have hsources := hmoved.sources
  have hactive := hmoved.active
  refine ⟨h.numbered.of_ids (by rw [hsources]) ?_, hactive.trans h.active, fun i hi hu => ?_,
    fun id hid => ?_, ?_, fun id hid => ?_, fun x hx hf => ?_⟩
  · exact Int.le_of_eq hmoved.lastId.symm
  · rw [hactive]
    rcases Store.of_mem_promote s₂ hi with hold | hg
    · by_cases hof : i.isOf source.id (s.active + 1) = true
      · exact .inr (Item.isOf_iff.mp hof).2
      · exact h.generation i (hc.mem hold (Bool.eq_false_iff.mpr hof)) hu
    · exact .inl hg
  · rw [hactive]
    by_cases hxid : id = source.id
    · rw [hxid, s₂.promote_itemsOf (by omega), hitems, List.map_map]
      simp only [Ledger.amend, if_true]
      rfl
    · rw [hmoved.itemsOf_of_ne hxid]
      simp only [Ledger.amend, hxid, if_false]
      exact h.items id hid
  · exact (hmoved.owned_of_ne huser.symm).trans h.user
  · have hbefore : s.knows id = false := by rw [← hid, hmoved.knows]
    have hne : id ≠ source.id := by
      intro he
      rw [he, Store.knows_of_mem hmem] at hbefore
      cases hbefore
    simp only [Ledger.amend, hne, if_false]
    exact h.unknown id hbefore
  · rw [hsources] at hx
    have hne : x.id ≠ source.id := by
      intro he
      rw [h.numbered.keyed.eq_of_id hx hmem he, hfetchable] at hf
      cases hf
    simp only [Ledger.amend, hne, if_false]
    exact h.unfetchable x hx hf

/-- A run over one source that is fetched and takes effect. -/
theorem fetched {w : World σ} {t : Setup} {task : Option String} {u u' : Updater σ}
    {source : Source} {r : Except Error Update.Report} (h : Tallies l u.store)
    (hmem : source ∈ u.store.sources) (huser : source.id ≠ Source.userId)
    (ends : Update.OneEnds w t source u.store.active
      (upon (Fetch.fetch w t.fetch source) (Update.atFetch task source u)).1
      (upon (Fetch.fetch w t.fetch source) (Update.atFetch task source u)).2 r u')
    (heffect : Update.hasTakenEffect r = true) :
    Tallies (l.amend source.id (·.take (contentAt w t source (Update.atFetch task source u))))
      { u'.store with durability := .normal } := by
  have hrelaxed := h.durability .relaxed
  rcases fetched_cases ends heffect with
    ⟨hnone, hsame⟩ | ⟨taken, staged, hcontent, hfetchable, hchanges, hitems, hstore⟩
  · rw [hnone, l.amend_take_none]
    exact (hrelaxed.check hsame).durability .normal
  · rw [hcontent, hstore]
    have hpromoted := hrelaxed.promote hmem huser hfetchable hchanges hitems
    have hlearned := hpromoted.updateMetadata source.id (Update.newMetadata taken.download)
    exact hlearned.synced.durability .normal

theorem updateOne (w : World σ) (t : Setup) (id : Int) (task : Option String) {u : Updater σ}
    (h : Tallies l u.store) :
    Tallies (l.recordOne u w t id task) (Update.updateOne w t id task u).2.store := by
  rcases l.recordOne_cases w t id task h.numbered.keyed with ⟨hsame, hw⟩ | ⟨source, hmem,
    ⟨huser, hsame, hstore⟩ | ⟨huser, hrecord, hstore⟩ |
      ⟨huser, hrecord, r, u', heffect, ends, hstore⟩⟩
  · rw [hsame]
    exact h.withheld hw (Update.updateOne_numbered w t id task u h.numbered) rfl rfl fun _ => rfl
  · rw [hsame, hstore]
    exact h.synced
  · rw [hrecord, hstore]
    exact (h.forget (beq_eq_false_iff_ne.mp huser)).synced
  · rw [hrecord, hstore]
    exact h.fetched hmem (beq_eq_false_iff_ne.mp huser) ends heffect

end Tallies

/-! ### Histories -/

theorem perform_tallies {l : Ledger σ} {u : Updater σ} (hu : u.running = false)
    (h : Tallies l u.store) (a : Act σ) : Tallies (l.record u a) (a.perform u).store := by
  cases a with
  | register r => exact h.register u rfl r
  | setEnabled id enabled =>
    show Tallies l (edited u (u.store.setEnabled id enabled)).store
    cases hset : u.store.setEnabled id enabled with
    | ok store => exact h.setEnabled hset
    | error e => exact h
  | remove id =>
    show Tallies (l.recordRemoval u id) (edited u (u.store.remove id)).store
    rw [Ledger.recordRemoval]
    cases hremove : u.store.remove id with
    | ok store => exact h.remove hremove
    | error e => exact h
  | addUser e =>
    show Tallies (l.recordEntry u e) (edited u (u.store.addUser e)).store
    rw [Ledger.recordEntry]
    cases hadd : u.store.addUser e with
    | ok store => exact h.addUser hadd
    | error e => exact h
  | removeUser host => exact h.removeUser host
  | check w s => exact h.check (Update.check_unprobed w s u)
  | updateAll w s task => exact h.updateAll w s task hu
  | updateOne w s id task => exact h.updateOne w s id task

end Sinkhole.History
