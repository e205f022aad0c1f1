import Sinkhole.Proofs.Store.Rebuild
import Mathlib.Data.List.Nodup
import Mathlib.Data.Set.Card

/-! What a rebuild counts.

The passes of a rebuild count what they do: rows put in, patterns put aside, rows taken
out again, rows put over others. Each of these numbers is the size of a set of hosts or
patterns that the items in force make up, and the rows of the table are what is left of
those sets (`sync_counted`). -/
namespace Sinkhole.Store

variable (s : Store)

/-! ### What is counted -/

def blockedHosts : Set String := {host | s.Blocks host}

/-- The hosts that some pattern matches. -/
def allowedHosts : Set String := {host | s.Allows host}

/-- The texts of the allow items in force. -/
def allowTexts : Set String :=
  {text | ∃ i, s.InForce i ∧ i.kind = Kind.allowed.number ∧ i.host = text}

def redirectedHosts : Set String := {host | ∃ i, s.Redirects host i}

/-- The hosts that rows of one kind are for. -/
def hostsOf (table : List HostRow) (k : Kind) : Set String :=
  {host | ∃ row ∈ table, row.kind = k.number ∧ row.host = host}

theorem ncard_of_nodup {α : Type} {members : Set α} {xs : List α} (hn : xs.Nodup)
    (h : ∀ x, x ∈ members ↔ x ∈ xs) : members.ncard = xs.length := by
  classical
  have hmembers : members = xs.toFinset := by
    ext x
    rw [h, List.coe_toFinset]
    rfl
  rw [hmembers, Set.ncard_coe_finset, List.toFinset_card_of_nodup hn]

theorem distinct_nodup (hosts : List String) : (distinct hosts).Nodup :=
  (distinct_ordered hosts).imp ne_of_lt

/-! ### The passes -/

theorem mem_blockedHosts {host : String} :
    host ∈ s.blockedHosts ↔ host ∈ distinct ((s.activeItems .blocked).map (·.host)) := by
  simp only [mem_distinct, List.mem_map, mem_activeItems, and_assoc]
  rfl

theorem mem_allowTexts {text : String} :
    text ∈ s.allowTexts ↔ text ∈ distinct ((s.activeItems .allowed).map (·.host)) := by
  simp only [mem_distinct, List.mem_map, mem_activeItems, and_assoc]
  rfl

theorem blockedHosts_finite : s.blockedHosts.Finite :=
  (List.finite_toSet _).subset fun _ h => (mem_blockedHosts s).mp h

/-- The blocked hosts are those that a pattern matches and the others. -/
theorem blockedHosts_parts :
    (s.blockedHosts ∩ s.allowedHosts).ncard + (s.blockedHosts \ s.allowedHosts).ncard =
      s.blockedHosts.ncard :=
  Set.ncard_inter_add_ncard_sdiff_eq_ncard _ _ s.blockedHosts_finite

theorem rebuild_blocked : s.rebuild.1.blocked = s.blockedHosts.ncard := by
  rw [ncard_of_nodup (distinct_nodup _) fun _ => mem_blockedHosts s]
  exact List.length_map _

theorem rebuild_allowPatterns : s.rebuild.1.allowPatterns = s.allowTexts.ncard := by
  rw [ncard_of_nodup (distinct_nodup _) fun _ => mem_allowTexts s]
  show s.allowPatterns.length = _
  rw [allowPatterns_eq, List.length_map]

/-- The rows that the carving leaves are for the blocked hosts that no pattern matches. -/
theorem carved_length : s.carved.length = (s.blockedHosts \ s.allowedHosts).ncard := by
  have hn : (s.carved.map (·.host)).Nodup :=
    List.pairwise_map.mpr (s.carved_ordered.imp ne_of_lt)
  rw [ncard_of_nodup hn fun host => ?_, List.length_map]
  simp only [List.mem_map, mem_carved]
  constructor
  · rintro ⟨hb, hna⟩
    exact ⟨_, ⟨host, hb, hna, rfl⟩, rfl⟩
  · rintro ⟨_, ⟨host, hb, hna, rfl⟩, rfl⟩
    exact ⟨hb, hna⟩

theorem rebuild_carvedOut : s.rebuild.1.carvedOut = (s.blockedHosts ∩ s.allowedHosts).ncard := by
  have hparts := s.blockedHosts_parts
  have hcarved := s.carved_length
  have hblocked := s.rebuild_blocked
  have hsub : s.rebuild.1.carvedOut = s.rebuild.1.blocked - s.carved.length := rfl
  omega

/-! ### The table -/

theorem rebuild_ordered : s.rebuild.2.Pairwise (·.host < ·.host) := s.rebuild_tabulates.ordered

theorem mem_hostsOf_redirected {host : String} :
    host ∈ hostsOf s.rebuild.2 .redirected ↔ host ∈ s.chosen.map (·.host) := by
  simp only [hostsOf, Set.mem_ofPred_eq, List.mem_map, mem_rebuild]
  constructor
  · rintro ⟨row, ⟨i, hi, rfl⟩ | ⟨hrow, -⟩, hk, rfl⟩
    · exact ⟨i, hi, rfl⟩
    · obtain ⟨host, -, -, rfl⟩ := (mem_carved s).mp hrow
      cases hk
  · rintro ⟨i, hi, rfl⟩
    exact ⟨redirectRow i, .inl ⟨i, hi, rfl⟩, rfl, rfl⟩

/-- The hosts in the table are the redirected ones and the blocked ones that no pattern matches. -/
theorem mem_rebuild_hosts {host : String} :
    host ∈ s.rebuild.2.map (·.host) ↔
      host ∈ hostsOf s.rebuild.2 .redirected ∪ s.blockedHosts \ s.allowedHosts := by
  rw [Set.mem_union, mem_hostsOf_redirected]
  simp only [List.mem_map, mem_rebuild]
  constructor
  · rintro ⟨row, ⟨i, hi, rfl⟩ | ⟨hrow, -⟩, rfl⟩
    · exact .inl ⟨i, hi, rfl⟩
    · obtain ⟨host, hb, hna, rfl⟩ := (mem_carved s).mp hrow
      exact .inr ⟨hb, hna⟩
  · rintro (⟨i, hi, rfl⟩ | ⟨hb, hna⟩)
    · exact ⟨redirectRow i, .inl ⟨i, hi, rfl⟩, rfl⟩
    · by_cases hr : ∃ i ∈ s.chosen, i.host = host
      · obtain ⟨i, hi, rfl⟩ := hr
        exact ⟨redirectRow i, .inl ⟨i, hi, rfl⟩, rfl⟩
      · refine ⟨_, .inr ⟨(mem_carved s).mpr ⟨host, hb, hna, rfl⟩, ?_⟩, rfl⟩
        exact fun i hi hh => hr ⟨i, hi, hh⟩

theorem rebuild_redirected : s.rebuild.1.redirected = (hostsOf s.rebuild.2 .redirected).ncard := by
  have hn : (s.chosen.map (·.host)).Nodup := List.pairwise_map.mpr (s.chosen_ordered.imp ne_of_lt)
  rw [ncard_of_nodup hn fun _ => mem_hostsOf_redirected s]
  exact (List.length_map _).symm

/-- A host that is both redirected and blocked has one row. -/
theorem rebuild_length :
    s.rebuild.2.length +
        (hostsOf s.rebuild.2 .redirected ∩ (s.blockedHosts \ s.allowedHosts)).ncard =
      (hostsOf s.rebuild.2 .redirected).ncard + (s.blockedHosts \ s.allowedHosts).ncard := by
  have hn : (s.rebuild.2.map (·.host)).Nodup :=
    List.pairwise_map.mpr (s.rebuild_ordered.imp ne_of_lt)
  have hredirects : (hostsOf s.rebuild.2 .redirected).Finite :=
    (List.finite_toSet _).subset fun _ h => (mem_hostsOf_redirected s).mp h
  rw [← Set.ncard_union_add_ncard_inter _ _ hredirects s.blockedHosts_finite.sdiff,
    ncard_of_nodup hn fun _ => (mem_rebuild_hosts s).symm, List.length_map]

/-! ### Rows by kind -/

/-- A table with one row a host has as many rows of a kind as hosts with one. -/
theorem countP_kind {table : List HostRow} (h : table.Pairwise (·.host < ·.host)) (k : Kind) :
    table.countP (·.kind == k.number) = (hostsOf table k).ncard := by
  have hn : ((table.filter (·.kind == k.number)).map (·.host)).Nodup :=
    List.pairwise_map.mpr ((h.filter _).imp ne_of_lt)
  rw [ncard_of_nodup hn fun host => ?_, List.length_map, List.countP_eq_length_filter]
  simp only [hostsOf, Set.mem_ofPred_eq, List.mem_map, List.mem_filter, beq_iff_eq, and_assoc]

/-- Every row is a block or a redirect. -/
theorem countP_kinds :
    s.rebuild.2.countP (·.kind == Kind.blocked.number) +
      s.rebuild.2.countP (·.kind == Kind.redirected.number) = s.rebuild.2.length := by
  rw [List.length_eq_countP_add_countP (·.kind == Kind.blocked.number)]
  congr 1
  refine List.countP_congr fun row hrow => ?_
  cases s.rebuild_tabulates.due row hrow with
  | redirected | blocked => simp [Kind.number]

theorem stats_blockedHosts :
    s.stats.blockedHosts = s.table.countP (·.kind == Kind.blocked.number) :=
  List.countP_eq_length_filter.symm

theorem stats_redirectedHosts :
    s.stats.redirectedHosts = s.table.countP (·.kind == Kind.redirected.number) :=
  List.countP_eq_length_filter.symm

/-- **The counts of a sync are the sizes of what it worked on**, for every store whose table can be
made: the blocked hosts, the patterns, of which rewriting makes no two one, the blocked hosts that a
pattern matches, and the redirects in the table. The table has a row for every other blocked host
and for every redirected one, and one only for a host that is both; the statistics count its rows by
kind, and there are no others. Where a host comes upon a pattern that is too long there are no
counts. -/
theorem sync_counted :
    ((∃ host, s.Stuck host) → s.sync = .error (.storage .patternTooLong)) ∧
      ((¬∃ host, s.Stuck host) → ∃ summary s', s.sync = .ok (summary, s') ∧
        summary.blocked = s.blockedHosts.ncard ∧
        (summary.allowPatterns = s.allowTexts.ncard ∧ Function.Injective Host.likePattern) ∧
        summary.carvedOut = (s.blockedHosts ∩ s.allowedHosts).ncard ∧
        summary.redirected = s'.table.countP (·.kind == Kind.redirected.number) ∧
        (s'.table.length : Int) = summary.blocked - summary.carvedOut + summary.redirected -
          (hostsOf s'.table .redirected ∩ (s.blockedHosts \ s.allowedHosts)).ncard ∧
        s'.stats.blockedHosts = s'.table.countP (·.kind == Kind.blocked.number) ∧
        s'.stats.redirectedHosts = s'.table.countP (·.kind == Kind.redirected.number) ∧
        s'.stats.blockedHosts + s'.stats.redirectedHosts = s'.table.length) := by
  rw [← isRefused_iff]
  refine ⟨sync_refused, fun hmade => ?_⟩
  have hmade := Bool.eq_false_iff.mpr hmade
  have hinjective : Function.Injective Host.likePattern := fun p q h =>
    String.toList_inj.mp (Host.toLike_injective (String.ofList_injective h))
  refine ⟨s.rebuild.1, s.synced, sync_made hmade, s.rebuild_blocked,
    ⟨s.rebuild_allowPatterns, hinjective⟩, s.rebuild_carvedOut, ?_, ?_, stats_blockedHosts _,
    stats_redirectedHosts _, ?_⟩
  · rw [synced_table hmade, s.rebuild_redirected, countP_kind s.rebuild_ordered]
  · have hlength := s.rebuild_length
    have hparts := s.blockedHosts_parts
    rw [synced_table hmade, s.rebuild_blocked, s.rebuild_carvedOut, s.rebuild_redirected]
    omega
  · rw [stats_blockedHosts, stats_redirectedHosts, synced_table hmade, s.countP_kinds]

/-- The one blocked host is carved out although the one pattern does not mean it; and where it is
matched with too many stars nothing is counted. -/
theorem counted_past_zero :
    ((listing "a\x00b" "a").sync.map (·.1) =
        .ok { blocked := 1, allowPatterns := 1, carvedOut := 1 } ∧
      ¬Host.Matches "a".toList "a\x00b".toList) ∧
    ∀ summary s', (listing "a" (String.ofList (Host.stars 50001))).sync ≠ .ok (summary, s') := by
  refine ⟨⟨by decide +kernel, Host.not_matches_past_zero⟩, fun summary s' h => ?_⟩
  rw [listing_stars] at h
  cases h

end Sinkhole.Store
