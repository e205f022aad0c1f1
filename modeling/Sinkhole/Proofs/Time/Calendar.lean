import Mathlib.Tactic.IntervalCases
import Sinkhole.Time.Calendar

/-! Days have dates, and dates have days.

A day is so many days after the first of March of some year, at most 365 of them, and
that many only where a leap day ends the year (`exists_ofDays`). On such days the two
conversions are plain sums, month by month. -/
namespace Sinkhole.Time

namespace Date

theorem monthLength_le (year : Int) (month : Nat) : monthLength year month ≤ 31 := by
  unfold monthLength
  split
  · split <;> omega
  · split <;> omega

theorem bounds_of_isReal {d : Date} (h : d.isReal = true) :
    1 ≤ d.month ∧ d.month ≤ 12 ∧ d.day ≤ 31 := by
  simp only [isReal, Bool.and_eq_true, decide_eq_true_eq] at h
  obtain ⟨⟨⟨hlow, hhigh⟩, -⟩, hday⟩ := h
  exact ⟨hlow, hhigh, hday.trans (monthLength_le d.year d.month)⟩

/-- The date so many days after the first of March of a year, in a month counted from March. -/
def ofMarch (year : Int) (month days : Nat) : Date :=
  { year := if month < 10 then year else year + 1
    month := if month < 10 then month + 3 else month - 9
    day := days - daysBefore month + 1 }

/-- A day of a year that begins in March: a leap day comes last. -/
structure InYear (year : Int) (month days : Nat) : Prop where
  month_eq : month = (5 * days + 2) / 153
  days_le : days ≤ 365
  leap : days = 365 → isLeap (year + 1) = true

variable {year : Int} {month days : Nat}

theorem isReal_ofMarch (h : InYear year month days) : (ofMarch year month days).isReal = true := by
  obtain ⟨hmonth, hdays, hleap⟩ := h
  have hle : month ≤ 11 := by omega
  simp only [isReal, ofMarch, monthLength, daysBefore, Bool.and_eq_true]
  interval_cases month
  all_goals simp
  all_goals try omega
  -- February
  by_cases hlast : days = 365
  · simp [hleap hlast]
    omega
  · split <;> omega

theorem toDays_ofMarch (h : InYear year month days) :
    (ofMarch year month days).toDays = year / 400 * 146097 +
      ((year % 400) * 365 + (year % 400) / 4 - (year % 400) / 100 + days + 1) - 719469 := by
  obtain ⟨hmonth, hdays, -⟩ := h
  have hbefore : (153 * month + 2) / 5 ≤ days := by omega
  simp only [toDays, ofMarch, daysBefore]
  by_cases hnext : month < 10
  · have hmarch : (month + 3 + 9) % 12 = month := by omega
    simp only [if_pos hnext]
    rw [if_neg (by omega), hmarch]
    omega
  · have hmarch : (month - 9 + 9) % 12 = month := by omega
    simp only [if_neg hnext]
    rw [if_pos (by omega), hmarch, Int.add_sub_cancel]
    omega

/-- Where a day lies in its cycle of 400 years: so many centuries, blocks of four years and
years, and days on top of them. Only what comes last can be longer by a leap day. -/
theorem exists_ofDays (n : Int) : ∃ (cycle : Int) (century block year days : Nat),
    century ≤ 3 ∧ block ≤ 24 ∧ year ≤ 3 ∧ days ≤ 365 ∧
      (days = 365 → year = 3 ∧ (block < 24 ∨ century = 3)) ∧
      n + 719468 = cycle * 146097 + (century * 36524 + block * 1461 + year * 365 + days : Nat) ∧
      ofDays n = ofMarch (cycle * 400 + (century * 100 + block * 4 + year : Nat))
        ((5 * days + 2) / 153) days := by
  refine ⟨(n + 719468) / 146097, _, _, _, _, ?_, ?_, ?_, ?_, ?_, ?_, rfl⟩
  all_goals omega

/-- The leap day is the last one of a block's last year, but not where a century begins with
it, unless a cycle does. -/
theorem isLeap_next {cycle : Int} {century block year : Nat} (hblock : block ≤ 24)
    (hyear : year = 3) (h : block < 24 ∨ century = 3) :
    isLeap (cycle * 400 + (century * 100 + block * 4 + year : Nat) + 1) = true := by
  have hfour : (cycle * 400 + (century * 100 + block * 4 + year : Nat) + 1) % 4 = 0 := by omega
  have hcentury : (cycle * 400 + (century * 100 + block * 4 + year : Nat) + 1) % 100 ≠ 0 ∨
      (cycle * 400 + (century * 100 + block * 4 + year : Nat) + 1) % 400 = 0 := by omega
  simp only [isLeap, Bool.and_eq_true, Bool.or_eq_true, decide_eq_true_eq]
  exact ⟨hfour, hcentury⟩

/-- A day is in the year its date is made of. -/
theorem ofDays_inYear (n : Int) : ∃ year month days, InYear year month days ∧
    ofDays n = ofMarch year month days ∧ (ofMarch year month days).toDays = n := by
  obtain ⟨cycle, century, block, year, days, hcentury, hblock, hyear, hdays, hlast, hn, hdate⟩ :=
    exists_ofDays n
  have hin : InYear (cycle * 400 + (century * 100 + block * 4 + year : Nat))
      ((5 * days + 2) / 153) days :=
    ⟨rfl, hdays, fun h => isLeap_next hblock (hlast h).1 (hlast h).2⟩
  refine ⟨_, _, days, hin, hdate, ?_⟩
  rw [toDays_ofMarch hin]
  omega

/-- Every day has a date that the calendar has. -/
theorem isReal_ofDays (n : Int) : (ofDays n).isReal = true := by
  obtain ⟨year, month, days, hin, hdate, -⟩ := ofDays_inYear n
  rw [hdate]
  exact isReal_ofMarch hin

/-- **A day is the day of its date.** -/
theorem toDays_ofDays (n : Int) : (ofDays n).toDays = n := by
  obtain ⟨year, month, days, -, hdate, hn⟩ := ofDays_inYear n
  rw [hdate, hn]

end Date

theorem weekday_lt (n : Int) : weekday n < 7 := by
  unfold weekday
  omega

end Sinkhole.Time
