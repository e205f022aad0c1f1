import Mathlib.Data.Finset.Card
import Mathlib.Data.List.Induction
import Sinkhole.Proofs.Intake.Sifted
import Sinkhole.Sizing

/-! How long repetitions are held back, and what that costs.

Up to the host that is one too many, exactly the first occurrences are let through, and
the hosts that were seen are remembered; from there on everything is let through and
nothing is remembered (`recalled`). So no host is lost, and there are never more
remembered than the cap allows, which is a share of what all parses at once may
remember. -/
namespace Sinkhole.Sightings

variable {s : Sightings} {cap : Nat} {hosts : List String} {host : String}

/-! ### One host after the other -/

/-- What is remembered after these hosts. -/
def after (cap : Nat) (hosts : List String) : Sightings := ((start cap).letThrough hosts).2

theorem letThrough_concat (s : Sightings) (hosts : List String) (host : String) :
    s.letThrough (hosts ++ [host]) =
      ((s.letThrough hosts).1 ++ if ((s.letThrough hosts).2.sight host).1 then [host] else [],
        ((s.letThrough hosts).2.sight host).2) := by
  induction hosts generalizing s with
  | nil => rfl
  | cons h hosts ih =>
    simp only [List.cons_append, letThrough, ih]
    split <;> rfl

theorem after_concat (cap : Nat) (hosts : List String) (host : String) :
    after cap (hosts ++ [host]) = ((after cap hosts).sight host).2 := by
  rw [after, letThrough_concat, after]

theorem cap_sight (s : Sightings) (host : String) : (s.sight host).2.cap = s.cap := by
  unfold sight
  split
  · rfl
  · split
    · rfl
    · split <;> rfl

theorem cap_after (cap : Nat) (hosts : List String) : (after cap hosts).cap = cap := by
  induction hosts using List.reverseRecOn with
  | nil => rfl
  | append_singleton hosts host ih => rw [after_concat, cap_sight, ih]

/-! ### How many hosts there are -/

theorem toFinset_concat (hosts : List String) (host : String) :
    (hosts ++ [host]).toFinset = insert host hosts.toFinset := by
  ext h
  simp

theorem card_concat_of_mem (h : host ∈ hosts) :
    (hosts ++ [host]).toFinset.card = hosts.toFinset.card := by
  rw [toFinset_concat, Finset.insert_eq_of_mem (List.mem_toFinset.mpr h)]

theorem card_concat_of_not_mem (h : host ∉ hosts) :
    (hosts ++ [host]).toFinset.card = hosts.toFinset.card + 1 := by
  rw [toFinset_concat, Finset.card_insert_of_notMem (mt List.mem_toFinset.mp h)]

theorem card_le_concat (hosts : List String) (host : String) :
    hosts.toFinset.card ≤ (hosts ++ [host]).toFinset.card := by
  by_cases h : host ∈ hosts
  · rw [card_concat_of_mem h]
  · rw [card_concat_of_not_mem h]
    exact Nat.le_succ _

/-! ### What is remembered -/

/-- The hosts that were seen are remembered, each once. -/
structure Remembers (s : Sightings) (hosts : List String) : Prop where
  filtering : s.filtering = true
  nodup : s.seen.Nodup
  mem_iff : ∀ h, h ∈ s.seen ↔ h ∈ hosts

theorem Remembers.length (h : s.Remembers hosts) : s.seen.length = hosts.toFinset.card := by
  rw [← List.toFinset_card_of_nodup h.nodup]
  congr 1
  ext host
  simp [h.mem_iff]

theorem Remembers.known (h : s.Remembers hosts) (hhost : host ∈ hosts) :
    s.sight host = (false, s) :=
  sight_known h.filtering ((h.mem_iff host).mpr hhost)

theorem Remembers.new (h : s.Remembers hosts) (hhost : host ∉ hosts)
    (hroom : hosts.toFinset.card < s.cap) :
    s.sight host = (true, { s with seen := host :: s.seen }) := by
  refine sight_new h.filtering (mt (h.mem_iff host).mp hhost) ?_
  rw [h.length]
  omega

theorem Remembers.full (h : s.Remembers hosts) (hhost : host ∉ hosts)
    (hfull : s.cap ≤ hosts.toFinset.card) :
    s.sight host = (true, { s with seen := [], filtering := false }) := by
  refine sight_full h.filtering (mt (h.mem_iff host).mp hhost) ?_
  rwa [h.length]

theorem remembers_after (hcap : 0 < cap) (hhosts : hosts.toFinset.card ≤ cap) :
    (after cap hosts).Remembers hosts := by
  induction hosts using List.reverseRecOn with
  | nil => exact ⟨by simp [after, letThrough, start]; omega, .nil, fun h => Iff.rfl⟩
  | append_singleton hosts host ih =>
    have hbefore := ih (Nat.le_trans (card_le_concat hosts host) hhosts)
    rw [after_concat]
    by_cases hhost : host ∈ hosts
    · rw [hbefore.known hhost]
      refine ⟨hbefore.filtering, hbefore.nodup, fun h => ?_⟩
      rw [hbefore.mem_iff]
      simp only [List.mem_append, List.mem_singleton]
      exact ⟨.inl, fun hor => hor.elim id (· ▸ hhost)⟩
    · rw [card_concat_of_not_mem hhost] at hhosts
      rw [hbefore.new hhost (by rw [cap_after]; omega)]
      refine ⟨hbefore.filtering, ?_, fun h => ?_⟩
      · exact List.nodup_cons.mpr ⟨mt (hbefore.mem_iff host).mp hhost, hbefore.nodup⟩
      · simp [hbefore.mem_iff, or_comm]

/-- A host that is one too many is let through, and all the others are forgotten. -/
theorem sight_excess (hcap : 0 < cap) (hroom : hosts.toFinset.card ≤ cap)
    (hexcess : cap < (hosts ++ [host]).toFinset.card) :
    (after cap hosts).sight host =
      (true, { after cap hosts with seen := [], filtering := false }) := by
  have hhost : host ∉ hosts := by
    intro hmem
    rw [card_concat_of_mem hmem] at hexcess
    omega
  rw [card_concat_of_not_mem hhost] at hexcess
  apply (remembers_after hcap hroom).full hhost
  rw [cap_after]
  omega

theorem forgotten_after (h : cap = 0 ∨ cap < hosts.toFinset.card) :
    (after cap hosts).filtering = false ∧ (after cap hosts).seen = [] := by
  induction hosts using List.reverseRecOn with
  | nil =>
    have hcap : cap = 0 := by simpa using h
    exact ⟨by simp [after, letThrough, start, hcap], rfl⟩
  | append_singleton hosts host ih =>
    rw [after_concat]
    by_cases hbefore : cap = 0 ∨ cap < hosts.toFinset.card
    · rw [sight_off (ih hbefore).1]
      exact ih hbefore
    · rw [sight_excess (by omega) (by omega) (by omega)]
      exact ⟨rfl, rfl⟩

/-! ### What is let through -/

theorem sight_first (hcap : 0 < cap) (hhosts : (hosts ++ [host]).toFinset.card ≤ cap) :
    ((after cap hosts).sight host).1 = true ↔ host ∉ hosts := by
  have hremembers := remembers_after hcap (Nat.le_trans (card_le_concat hosts host) hhosts)
  by_cases hhost : host ∈ hosts
  · simp [hremembers.known hhost, hhost]
  · rw [card_concat_of_not_mem hhost] at hhosts
    rw [hremembers.new hhost (by rw [cap_after]; omega)]
    simp [hhost]

theorem sight_every (h : cap = 0 ∨ cap < (hosts ++ [host]).toFinset.card) :
    ((after cap hosts).sight host).1 = true := by
  by_cases hbefore : cap = 0 ∨ cap < hosts.toFinset.card
  · rw [sight_off (forgotten_after hbefore).1]
  · rw [sight_excess (by omega) (by omega) (by omega)]

/-- No host is lost. -/
theorem mem_letThrough (cap : Nat) (hosts : List String) :
    host ∈ ((start cap).letThrough hosts).1 ↔ host ∈ hosts := by
  induction hosts using List.reverseRecOn with
  | nil => rfl
  | append_singleton hosts h ih =>
    rw [letThrough_concat, List.mem_append, List.mem_append, ih]
    cases hfirst : (((start cap).letThrough hosts).2.sight h).1 with
    | true => simp
    | false =>
      -- what is held back was there before
      have hbefore : h ∈ hosts := by
        by_contra hnew
        have hlet : ((after cap hosts).sight h).1 = true := by
          by_cases hhosts : cap = 0 ∨ cap < (hosts ++ [h]).toFinset.card
          · exact sight_every hhosts
          · exact (sight_first (by omega) (by omega)).mpr hnew
        exact Bool.false_ne_true (hfirst.symm.trans hlet)
      simp only [Bool.false_eq_true, if_false, List.not_mem_nil, or_false, List.mem_singleton]
      exact ⟨.inl, fun hor => hor.elim id (· ▸ hbefore)⟩

theorem length_seen_le (cap : Nat) (hosts : List String) : (after cap hosts).seen.length ≤ cap := by
  by_cases h : cap = 0 ∨ cap < hosts.toFinset.card
  · rw [(forgotten_after h).2]
    exact Nat.zero_le _
  · rw [(remembers_after (by omega) (by omega)).length]
    omega

/-- What comes of these hosts under a cap. -/
structure Recall (cap : Nat) (hosts : List String) : Prop where
  /-- As long as there are no more hosts than the cap allows, they are all remembered. -/
  within : 0 < cap → hosts.toFinset.card ≤ cap →
    (after cap hosts).filtering = true ∧ (after cap hosts).seen.Nodup ∧
      ∀ host, host ∈ (after cap hosts).seen ↔ host ∈ hosts
  /-- From the one that is too many on, nothing is, and repetitions are no longer held back. -/
  beyond : cap = 0 ∨ cap < hosts.toFinset.card →
    (after cap hosts).filtering = false ∧ (after cap hosts).seen = []
  /-- Up to that one, a host is let through exactly if it was not there before. -/
  first : ∀ host, 0 < cap → (hosts ++ [host]).toFinset.card ≤ cap →
    (((after cap hosts).sight host).1 = true ↔ host ∉ hosts)
  every : ∀ host, cap = 0 ∨ cap < (hosts ++ [host]).toFinset.card →
    ((after cap hosts).sight host).1 = true
  whole : ∀ host, host ∈ ((start cap).letThrough hosts).1 ↔ host ∈ hosts
  bounded : (after cap hosts).seen.length ≤ cap

/-- What parses may remember at most, if as many run as may run at once. -/
theorem budget (m : Machine) (settings : PipelineSettings) :
    (Sizing.of m settings).dedupCapPerParse * (Sizing.of m settings).activeParses ≤
      settings.dedupCap.getD (memoryTier (settings.memoryBytes.getD m.memory)).dedupCap :=
  Nat.div_mul_le_self _ _

/-- **First occurrences are told until there is one host too many, none is ever lost, and all
parses at once remember no more than they may together.** -/
theorem recalled (cap : Nat) (hosts : List String) : Recall cap hosts ∧
    ∀ (m : Machine) (settings : PipelineSettings),
      0 < (Sizing.of m settings).activeParses ∧
        (Sizing.of m settings).dedupCapPerParse * (Sizing.of m settings).activeParses ≤
          settings.dedupCap.getD (memoryTier (settings.memoryBytes.getD m.memory)).dedupCap := by
  constructor
  · exact {
      within := fun hcap hhosts =>
        have h := remembers_after hcap hhosts
        ⟨h.filtering, h.nodup, h.mem_iff⟩
      beyond := forgotten_after
      first := fun _ => sight_first
      every := fun _ => sight_every
      whole := fun _ => mem_letThrough cap hosts
      bounded := length_seen_le cap hosts }
  · intro m settings
    exact ⟨Nat.le_max_right _ 1, budget m settings⟩

end Sinkhole.Sightings
