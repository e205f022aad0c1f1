import Mathlib.Algebra.Group.Nat.Defs
import Mathlib.Data.List.Induction
import Mathlib.Order.Bounds.Basic
import Sinkhole.Proofs.Progress.Meter

/-! What a meter shows in the course of a run.

What was asked of a meter since it began tells how much of a phase is done and of how
much (`counts`). What a meter shows of a phase is the greatest percentage that this came
to whenever a snapshot was taken, whatever became of the total since; and the overall
percentage is the greatest of those that the phases then came to (`charted`). -/
namespace Sinkhole.Progress

/-! ### What is asked -/

namespace Request

/-- How much of a phase is done after these requests. -/
def done (phase : Phase) (rs : List Request) : Nat := rs.count (.complete phase)

/-- The total that a phase was given last; none at first. -/
def total (phase : Phase) : List Request → Nat :=
  List.foldl (fun total r => match r with
    | .setTotal phase' total' => if phase' = phase then total' else total
    | _ => total) 0

/-- What is done of a phase as a percentage, rounded down; nothing of nothing is none. -/
def share (phase : Phase) (rs : List Request) : Nat :=
  if total phase rs = 0 then 0
  else 100 * min (done phase rs) (total phase rs) / total phase rs

/-- Whether a snapshot was taken with the last of these requests; with none of them, it is the
one that was taken when the run began. -/
def Snapped (rs : List Request) : Prop := ∀ r ∈ rs.getLast?, r.rest ≠ .idle

/-- Whether the last of these requests has sent a snapshot to the watchers. -/
def Published (rs : List Request) : Prop := ∀ r ∈ rs.getLast?, r.rest = .publishing

end Request

/-- What `f` came to whenever a snapshot was taken. -/
def seenOf (f : List Request → Nat) (rs : List Request) : Set Nat :=
  {n | ∃ qs, qs <+: rs ∧ Request.Snapped qs ∧ f qs = n}

section Seen
variable {f : List Request → Nat} {rs : List Request} {r : Request} {n : Nat}

theorem seenOf_mono {qs : List Request} (h : qs <+: rs) : seenOf f qs ⊆ seenOf f rs := by
  rintro n ⟨ps, hps, hsnapped, hn⟩
  exact ⟨ps, hps.trans h, hsnapped, hn⟩

theorem seenOf_nil : IsGreatest (seenOf f []) (f []) := by
  constructor
  · exact ⟨[], List.prefix_refl _, nofun, rfl⟩
  · rintro n ⟨qs, hqs, -, rfl⟩
    rw [List.prefix_nil.mp hqs]

/-- A request with which no snapshot is taken shows nothing new. -/
theorem seenOf_silent (h : IsGreatest (seenOf f rs) n) (hr : r.rest = .idle) :
    IsGreatest (seenOf f (rs ++ [r])) n := by
  constructor
  · exact seenOf_mono (List.prefix_append ..) h.1
  · rintro m ⟨qs, hqs, hsnapped, hm⟩
    rcases List.prefix_concat_iff.mp hqs with rfl | hold
    · exact absurd hr (hsnapped r (by simp))
    · exact h.2 ⟨qs, hold, hsnapped, hm⟩

theorem seenOf_snapped (h : IsGreatest (seenOf f rs) n) (hr : r.rest ≠ .idle) :
    IsGreatest (seenOf f (rs ++ [r])) (max n (f (rs ++ [r]))) := by
  have hnow : f (rs ++ [r]) ∈ seenOf f (rs ++ [r]) :=
    ⟨rs ++ [r], List.prefix_refl _, by simpa [Request.Snapped] using hr, rfl⟩
  constructor
  · rcases le_total n (f (rs ++ [r])) with hle | hle
    · rwa [max_eq_right hle]
    · rw [max_eq_left hle]
      exact seenOf_mono (List.prefix_append ..) h.1
  · rintro m ⟨qs, hqs, hsnapped, rfl⟩
    rcases List.prefix_concat_iff.mp hqs with rfl | hold
    · exact le_max_right _ _
    · exact (h.2 ⟨qs, hold, hsnapped, rfl⟩).trans (le_max_left _ _)

end Seen

/-! ### What the meter counts -/

/-- A meter that began a run, after what was asked of it since. -/
def during (p : Progress) (task : Option String) (rs : List Request) : Progress :=
  rs.foldl (fun m r => r.carryOut m) (p.begin task)

theorem during_concat (p : Progress) (task : Option String) (rs : List Request) (r : Request) :
    p.during task (rs ++ [r]) = r.carryOut (p.during task rs) := by
  simp [during]

/-- The tally of a phase. -/
def tally (p : Progress) : Phase → Tally
  | .check => p.now.check
  | .download => p.now.download
  | .parse => p.now.parse

theorem tally_onPhase (p : Progress) (phase phase' : Phase) (f : Tally → Tally) :
    (p.onPhase phase f).tally phase' =
      if phase = phase' then f (p.tally phase') else p.tally phase' := by
  cases phase <;> cases phase' <;> rfl

/-- What a request writes of a phase. -/
theorem tally_write (r : Request) (p : Progress) (phase : Phase) :
    (r.write p).tally phase = match r with
      | .setTotal phase' total =>
        if phase' = phase then { p.tally phase with total } else p.tally phase
      | .complete phase' =>
        if phase' = phase then { p.tally phase with done := (p.tally phase).done + 1 }
        else p.tally phase
      | _ => p.tally phase := by
  cases r with
  | setTotal phase' total => exact tally_onPhase ..
  | complete phase' => exact tally_onPhase ..
  | _ => cases phase <;> rfl

theorem tally_publish (p : Progress) (phase : Phase) :
    p.publish.tally phase = (p.tally phase).show' := by
  cases phase <;> rfl

theorem tally_carryOut (r : Request) (p : Progress) (phase : Phase) :
    (r.carryOut p).tally phase =
      if r.rest = .idle then (r.write p).tally phase else ((r.write p).tally phase).show' := by
  cases r with
  | addHosts count => rfl
  | snapshot => cases phase <;> rfl
  | _ => exact tally_publish ..

theorem done_carryOut (r : Request) (p : Progress) (phase : Phase) :
    ((r.carryOut p).tally phase).done =
      (p.tally phase).done + if r = .complete phase then 1 else 0 := by
  have hwrite : ((r.carryOut p).tally phase).done = ((r.write p).tally phase).done := by
    rw [tally_carryOut]
    split <;> rfl
  rw [hwrite, tally_write]
  cases r with
  | complete phase' => by_cases hphase : phase' = phase <;> simp [hphase]
  | setTotal phase' total => by_cases hphase : phase' = phase <;> simp [hphase]
  | _ => rfl

theorem total_carryOut (r : Request) (p : Progress) (phase : Phase) :
    ((r.carryOut p).tally phase).total = match r with
      | .setTotal phase' total => if phase' = phase then total else (p.tally phase).total
      | _ => (p.tally phase).total := by
  have hwrite : ((r.carryOut p).tally phase).total = ((r.write p).tally phase).total := by
    rw [tally_carryOut]
    split <;> rfl
  rw [hwrite, tally_write]
  cases r with
  | setTotal phase' total => by_cases hphase : phase' = phase <;> simp [hphase]
  | complete phase' => by_cases hphase : phase' = phase <;> simp [hphase]
  | _ => rfl

section Course
variable (p : Progress) (task : Option String) (phase : Phase) (rs : List Request)

/-- The counts of a meter are what the requests come to. -/
theorem counts : ((p.during task rs).tally phase).done = Request.done phase rs ∧
    ((p.during task rs).tally phase).total = Request.total phase rs := by
  induction rs using List.reverseRecOn with
  | nil => cases phase <;> exact ⟨rfl, rfl⟩
  | append_singleton rs r ih =>
    rw [during_concat]
    constructor
    · rw [done_carryOut, ih.1, Request.done, Request.done, List.count_append,
        List.count_singleton]
      simp
    · rw [total_carryOut, ih.2, Request.total, List.foldl_concat]

theorem percent_during :
    ((p.during task rs).tally phase).percent = Request.share phase rs := by
  obtain ⟨hdone, htotal⟩ := counts p task phase rs
  rw [Tally.percent, hdone, htotal, Request.share, Nat.mul_comm 100]

end Course

/-! ### What is shown -/

theorem shown_carryOut (r : Request) (p : Progress) (phase : Phase) :
    ((r.carryOut p).tally phase).shown =
      if r.rest = .idle then (p.tally phase).shown
      else max (p.tally phase).shown ((r.carryOut p).tally phase).percent := by
  have hwrite : ((r.write p).tally phase).shown = (p.tally phase).shown := by
    obtain ⟨hcheck, hdownload, hparse, -⟩ : _ ∧ _ ∧ _ ∧ _ := by
      simpa only [Snapshot.percents, Prod.mk.injEq] using r.write_percents p
    cases phase with
    | check => exact hcheck
    | download => exact hdownload
    | parse => exact hparse
  rw [tally_carryOut]
  split
  · exact hwrite
  · rw [← hwrite]
    rfl

theorem overall_carryOut (r : Request) (p : Progress) :
    (r.carryOut p).now.overallPercent =
      if r.rest = .idle then p.now.overallPercent
      else max p.now.overallPercent (overall (r.carryOut p).now) := by
  cases r with
  | setTotal phase total => cases phase <;> rfl
  | complete phase => cases phase <;> rfl
  | _ => rfl

section Course
variable (p : Progress) (task : Option String) (rs : List Request)

/-- What a run has come to after these requests: the mean of what is shown of downloading and
parsing, rounded down, or what is shown of checking while there is neither. -/
def pace : Nat :=
  if Request.total .download rs = 0 ∧ Request.total .parse rs = 0 then
    ((p.during task rs).tally .check).shown
  else
    (((p.during task rs).tally .download).shown + ((p.during task rs).tally .parse).shown) / 2

theorem overall_during : overall (p.during task rs).now = pace p task rs := by
  have hdownload := (counts p task .download rs).2
  have hparse := (counts p task .parse rs).2
  simp only [tally] at hdownload hparse
  simp only [overall, pace, hdownload, hparse, tally]
  by_cases hnone : Request.total .download rs = 0 ∧ Request.total .parse rs = 0
  · simp [hnone]
  · have hany : 0 < Request.total .download rs ∨ 0 < Request.total .parse rs := by omega
    simp [hnone, hany]

theorem shown_greatest (phase : Phase) :
    IsGreatest (seenOf (Request.share phase) rs) ((p.during task rs).tally phase).shown := by
  induction rs using List.reverseRecOn with
  | nil =>
    have hnone : ((p.during task []).tally phase).shown = Request.share phase [] := by
      cases phase <;> rfl
    rw [hnone]
    exact seenOf_nil
  | append_singleton rs r ih =>
    rw [during_concat, shown_carryOut]
    split
    · rename_i hidle
      exact seenOf_silent ih hidle
    · rename_i hsnapped
      rw [← during_concat, percent_during]
      exact seenOf_snapped ih hsnapped

theorem overall_greatest :
    IsGreatest (seenOf (pace p task) rs) (p.during task rs).now.overallPercent := by
  induction rs using List.reverseRecOn with
  | nil => exact seenOf_nil
  | append_singleton rs r ih =>
    rw [during_concat, overall_carryOut]
    split
    · rename_i hidle
      exact seenOf_silent ih hidle
    · rename_i hsnapped
      rw [← during_concat, overall_during]
      exact seenOf_snapped ih hsnapped

/-- The snapshot that watchers see is the latest that was sent to them. -/
theorem published_latest : ∃ qs since, rs = qs ++ since ∧ Request.Published qs ∧
    (∀ r ∈ since, r.rest ≠ .publishing) ∧
    (p.during task rs).published = (p.during task qs).now := by
  induction rs using List.reverseRecOn with
  | nil => exact ⟨[], [], rfl, nofun, nofun, rfl⟩
  | append_singleton rs r ih =>
    by_cases hr : r.rest = .publishing
    · refine ⟨rs ++ [r], [], by simp, by simpa [Request.Published] using hr, nofun, ?_⟩
      rw [during_concat, r.carryOut_eq, hr]
      rfl
    · obtain ⟨qs, since, rfl, hqs, hsince, hpublished⟩ := ih
      refine ⟨qs, since ++ [r], by simp, hqs, ?_, ?_⟩
      · intro r' hr'
        rcases List.mem_append.mp hr' with hold | hnew
        · exact hsince r' hold
        · rwa [List.mem_singleton.mp hnew]
      · rw [during_concat, ← hpublished]
        cases r with
        | addHosts count => rfl
        | snapshot => rfl
        | _ => exact absurd rfl hr

theorem share_le (phase : Phase) : Request.share phase rs ≤ 100 := by
  rw [← percent_during {} none phase rs]
  exact Tally.percent_le _

theorem pace_le (h : ∀ phase, ((p.during task rs).tally phase).shown ≤ 100) :
    pace p task rs ≤ 100 := by
  have hcheck := h .check
  have hdownload := h .download
  have hparse := h .parse
  unfold pace
  split <;> omega

end Course

/-! ### In words of a machine -/

/-- A percentage as it is worked out in words of 64 bits and kept in one of eight. -/
def wordShare (done total : UInt64) : UInt8 :=
  if total = 0 then 0 else ((if done ≤ total then done else total) * 100 / total).toUInt8

theorem toNat_word {n : Nat} (h : n < 2 ^ 57) : (UInt64.ofNat n).toNat = n :=
  UInt64.toNat_ofNat_of_lt (Nat.lt_trans h (by decide))

/-- As long as the counts are below `2 ^ 57`, a hundred times the lesser still fits. -/
theorem wordShare_toNat {done total : Nat} (hdone : done < 2 ^ 57) (htotal : total < 2 ^ 57) :
    (wordShare (.ofNat done) (.ofNat total)).toNat =
      if total = 0 then 0 else 100 * min done total / total := by
  have hdone' := toNat_word hdone
  have htotal' := toNat_word htotal
  have hzero : UInt64.ofNat total = 0 ↔ total = 0 := by
    rw [← UInt64.toNat_inj, htotal']
    rfl
  have hmin : (if UInt64.ofNat done ≤ .ofNat total then UInt64.ofNat done
      else .ofNat total).toNat = min done total := by
    simp only [UInt64.le_iff_toNat_le, hdone', htotal']
    split <;> omega
  simp only [wordShare, hzero]
  split
  · rfl
  · have hle : min done total * 100 / total ≤ 100 :=
      Nat.div_le_of_le_mul (Nat.mul_le_mul_right 100 (Nat.min_le_right _ _))
    have hfits : min done total * 100 < 2 ^ 64 := by omega
    rw [UInt64.toNat_toUInt8, UInt64.toNat_div, UInt64.toNat_mul, hmin, htotal',
      show (100 : UInt64).toNat = 100 from rfl, Nat.mod_eq_of_lt hfits,
      Nat.mod_eq_of_lt (by omega), Nat.mul_comm 100]

/-! ### The course of a run -/

/-- What a meter shows after the requests `rs`; where a snapshot was taken with the last of
them, this is that snapshot. -/
structure Charted (p : Progress) (task : Option String) (rs : List Request) : Prop where
  counts : ∀ phase, ((p.during task rs).tally phase).done = Request.done phase rs ∧
    ((p.during task rs).tally phase).total = Request.total phase rs
  /-- Each phase shows the most that it came to whenever a snapshot was taken. -/
  shown : ∀ phase,
    IsGreatest (seenOf (Request.share phase) rs) ((p.during task rs).tally phase).shown
  overall : IsGreatest (seenOf (pace p task) rs) (p.during task rs).now.overallPercent
  capped : (p.during task rs).now.percents ≤ (100, 100, 100, 100)
  rising : ∀ qs, qs <+: rs → (p.during task qs).now.percents ≤ (p.during task rs).now.percents
  /-- Watchers see the latest snapshot that was sent to them. -/
  published : ∃ qs since, rs = qs ++ since ∧ Request.Published qs ∧
    (∀ r ∈ since, r.rest ≠ .publishing) ∧
    (p.during task rs).published = (p.during task qs).now
  /-- Below `2 ^ 57`, a machine comes to the same percentages. -/
  words : ∀ phase, Request.done phase rs < 2 ^ 57 → Request.total phase rs < 2 ^ 57 →
    (wordShare (.ofNat (Request.done phase rs)) (.ofNat (Request.total phase rs))).toNat =
      Request.share phase rs

/-- **Whatever is asked of a meter in the course of a run, in whatever order, each percentage is
the greatest that was computed for a snapshot so far**, so none is above a hundred, none goes
back, and the watchers have the latest snapshot that was meant for them. -/
theorem charted (p : Progress) (task : Option String) (rs : List Request) :
    Charted p task rs where
  counts phase := counts p task phase rs
  shown := shown_greatest p task rs
  overall := overall_greatest p task rs
  capped := by
    have hshown : ∀ qs phase, ((p.during task qs).tally phase).shown ≤ 100 := by
      intro qs phase
      obtain ⟨ps, -, -, hps⟩ := (shown_greatest p task qs phase).1
      rw [← hps]
      exact share_le ps phase
    obtain ⟨ps, -, -, hps⟩ := (overall_greatest p task rs).1
    have hoverall := pace_le p task ps (hshown ps)
    rw [hps] at hoverall
    exact ⟨hshown rs .check, hshown rs .download, hshown rs .parse, hoverall⟩
  rising qs hqs := by
    have hshown : ∀ phase, ((p.during task qs).tally phase).shown ≤
        ((p.during task rs).tally phase).shown := fun phase =>
      (shown_greatest p task qs phase).mono (shown_greatest p task rs phase) (seenOf_mono hqs)
    have hoverall :=
      (overall_greatest p task qs).mono (overall_greatest p task rs) (seenOf_mono hqs)
    exact ⟨hshown .check, hshown .download, hshown .parse, hoverall⟩
  published := published_latest p task rs
  words _ hdone htotal := wordShare_toNat hdone htotal

/-- A total that grows, or vanishes, takes nothing back. -/
example : (during {} none [.setTotal .download 2, .complete .download, .setTotal .download 4,
    .setTotal .download 0]).now.percents = (0, 50, 0, 25) := by decide

end Sinkhole.Progress
