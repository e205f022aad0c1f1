import Sinkhole.Proofs.Progress

/-! What a meter counts.

A meter moves on by what is completed and by the hosts that are counted, and whatever
else is done to it leaves its counts alone (`Moved`). No percentage is ever above a
hundred, so where all of a phase is done its percentage is exactly that (`Ready.finish`). -/
namespace Sinkhole

/-! ### Percentages -/

namespace Tally

theorem percent_le (t : Tally) : t.percent ≤ 100 := by
  unfold percent
  split
  · exact Nat.zero_le _
  · refine Nat.div_le_of_le_mul ?_
    exact Nat.mul_le_mul_right 100 (Nat.min_le_right _ _)

theorem percent_full {t : Tally} (hdone : t.done = t.total) (hpos : 0 < t.total) :
    t.percent = 100 := by
  rw [percent, if_neg (by omega), hdone, Nat.min_self, Nat.mul_div_cancel_left 100 hpos]

/-- A tally that was shown shows no more than a hundred, if it did not before. -/
theorem shown_le {t : Tally} (h : t.shown ≤ 100) : t.show'.shown ≤ 100 :=
  Nat.max_le.mpr ⟨h, t.percent_le⟩

theorem shown_full {t : Tally} (h : t.shown ≤ 100) (hdone : t.done = t.total) (hpos : 0 < t.total) :
    t.show'.shown = 100 := by
  show max t.shown t.percent = 100
  rw [percent_full hdone hpos, Nat.max_eq_right h]

end Tally

namespace Progress

variable {m m' m'' : Progress} {a a' b b' c c' : Nat}

/-- No percentage is above a hundred. -/
def Capped (m : Progress) : Prop := m.now.percents ≤ (100, 100, 100, 100)

theorem Capped.snapshot (h : m.Capped) : m.snapshot.Capped := by
  obtain ⟨hcheck, hdownload, hparse, hoverall⟩ := h
  have hdownload := Tally.shown_le hdownload
  have hparse := Tally.shown_le hparse
  refine ⟨Tally.shown_le hcheck, hdownload, hparse, Nat.max_le.mpr ⟨hoverall, ?_⟩⟩
  unfold Progress.overall
  dsimp only
  split
  · have hsum := Nat.add_le_add hdownload hparse
    omega
  · exact Tally.shown_le hcheck

/-- The mean of two full phases is full. -/
theorem overall_full {s : Snapshot} (hdownload : s.download.shown = 100)
    (hparse : s.parse.shown = 100) (hpos : 0 < s.download.total) : overall s = 100 := by
  have hany : (s.download.total > 0 || s.parse.total > 0) = true := by
    rw [Bool.or_eq_true, decide_eq_true_eq]
    exact .inl hpos
  rw [overall, if_pos hany, hdownload, hparse]

/-! ### Counts -/

/-- A meter that has moved on by so many downloads, parses and hosts, with the totals as they
were. -/
structure Moved (downloads parses hosts : Nat) (m m' : Progress) : Prop where
  downloads : m'.now.download.done = m.now.download.done + downloads
  parses : m'.now.parse.done = m.now.parse.done + parses
  hosts : m'.now.hostsParsed = m.now.hostsParsed + hosts
  downloadTotal : m'.now.download.total = m.now.download.total
  parseTotal : m'.now.parse.total = m.now.parse.total
  capped : m.Capped → m'.Capped

theorem Moved.refl (m : Progress) : Moved 0 0 0 m m := ⟨rfl, rfl, rfl, rfl, rfl, id⟩

theorem Moved.trans (h : Moved a b c m m') (h' : Moved a' b' c' m' m'') :
    Moved (a + a') (b + b') (c + c') m m'' where
  downloads := by rw [h'.downloads, h.downloads, Nat.add_assoc]
  parses := by rw [h'.parses, h.parses, Nat.add_assoc]
  hosts := by rw [h'.hosts, h.hosts, Nat.add_assoc]
  downloadTotal := h'.downloadTotal.trans h.downloadTotal
  parseTotal := h'.parseTotal.trans h.parseTotal
  capped := h'.capped ∘ h.capped

/-- A meter that stood still first has moved on by what came then. -/
theorem Moved.still_trans (h : Moved 0 0 0 m m') (h' : Moved a b c m' m'') :
    Moved a b c m m'' := by
  have hboth := h.trans h'
  rwa [Nat.zero_add, Nat.zero_add, Nat.zero_add] at hboth

theorem snapshot_moved (m : Progress) : Moved 0 0 0 m m.snapshot :=
  ⟨rfl, rfl, rfl, rfl, rfl, Capped.snapshot⟩

/-- What is published of a meter that moves on is no more than that. -/
theorem Moved.publish (h : Moved a b c m m') : Moved a b c m m'.publish :=
  ⟨h.downloads, h.parses, h.hosts, h.downloadTotal, h.parseTotal,
    fun hm => (h.capped hm).snapshot⟩

theorem setCurrentItem_moved (m : Progress) (label : String) :
    Moved 0 0 0 m (m.setCurrentItem label) := .publish ⟨rfl, rfl, rfl, rfl, rfl, id⟩

theorem setPaused_moved (m : Progress) (paused : Bool) : Moved 0 0 0 m (m.setPaused paused) :=
  .publish ⟨rfl, rfl, rfl, rfl, rfl, id⟩

theorem setStopped_moved (m : Progress) : Moved 0 0 0 m m.setStopped :=
  .publish ⟨rfl, rfl, rfl, rfl, rfl, id⟩

theorem addHosts_moved (m : Progress) (count : Nat) : Moved 0 0 count m (m.addHosts count) :=
  ⟨rfl, rfl, rfl, rfl, rfl, id⟩

theorem completeDownload_moved (m : Progress) : Moved 1 0 0 m (m.complete .download) :=
  .publish ⟨rfl, rfl, rfl, rfl, rfl, id⟩

theorem completeParse_moved (m : Progress) : Moved 0 1 0 m (m.complete .parse) :=
  .publish ⟨rfl, rfl, rfl, rfl, rfl, id⟩

/-! ### A run over so many sources -/

/-- A meter with nothing done of so many. -/
structure Ready (n : Nat) (m : Progress) : Prop where
  download : m.now.download.done = 0 ∧ m.now.download.total = n
  parse : m.now.parse.done = 0 ∧ m.now.parse.total = n
  hosts : m.now.hostsParsed = 0
  capped : m.Capped

/-- A run that begins has a new meter, whatever was on the old one. -/
theorem ready_begin (m : Progress) (task : Option String) (n : Nat) :
    Ready n (((m.begin task).setTotal .download n).setTotal .parse n) := by
  have hnew : (m.begin task).Capped := by
    show ((0, 0, 0, 0) : Nat × Nat × Nat × Nat) ≤ (100, 100, 100, 100)
    decide
  have htotal {m : Progress} (h : m.Capped) : ∀ phase, (m.setTotal phase n).Capped := by
    intro phase
    cases phase <;> exact Capped.snapshot (m := m.onPhase _ _) h
  exact ⟨⟨rfl, rfl⟩, ⟨rfl, rfl⟩, rfl, htotal (htotal hnew _) _⟩

/-- A snapshot of a run that is over, with all of so many done. -/
structure Through (n : Nat) (s : Snapshot) : Prop where
  ended : s.running = false
  download : s.download.done = n ∧ s.download.total = n
  parse : s.parse.done = n ∧ s.parse.total = n
  percents : 0 < n → s.download.shown = 100 ∧ s.parse.shown = 100 ∧ s.overallPercent = 100

/-- **A meter that has moved on by all of its downloads and parses ends at a hundred per cent.** -/
theorem Ready.finish {n hosts : Nat} (h : Ready n m) (h' : Moved n n hosts m m') :
    Through n m'.finish.now := by
  have hdownload : m'.now.download.done = n ∧ m'.now.download.total = n :=
    ⟨by rw [h'.downloads, h.download.1, Nat.zero_add], h'.downloadTotal.trans h.download.2⟩
  have hparse : m'.now.parse.done = n ∧ m'.now.parse.total = n :=
    ⟨by rw [h'.parses, h.parse.1, Nat.zero_add], h'.parseTotal.trans h.parse.2⟩
  obtain ⟨-, hshown, hshown', hoverall⟩ := h'.capped h.capped
  refine ⟨rfl, hdownload, hparse, fun hpos => ?_⟩
  have hfull : m'.now.download.show'.shown = 100 :=
    Tally.shown_full hshown (hdownload.1.trans hdownload.2.symm) (hdownload.2 ▸ hpos)
  have hfull' : m'.now.parse.show'.shown = 100 :=
    Tally.shown_full hshown' (hparse.1.trans hparse.2.symm) (hparse.2 ▸ hpos)
  refine ⟨hfull, hfull', ?_⟩
  show max m'.now.overallPercent (overall _) = 100
  rw [overall_full hfull hfull' (hdownload.2 ▸ hpos)]
  exact Nat.max_eq_right hoverall

end Progress

end Sinkhole
