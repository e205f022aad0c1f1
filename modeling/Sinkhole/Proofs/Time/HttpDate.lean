import Mathlib.Data.List.GetD
import Sinkhole.Time.HttpDate
import Sinkhole.Proofs.Text.Decimal
import Sinkhole.Proofs.Text.Trim
import Sinkhole.Proofs.Time.Calendar

/-! Dates in HTTP headers, written and read back.

A written date is made of parts (`Parts`), and each reader takes exactly its own: what
stands behind a number is no digit, what stands behind a blank is none. The parts of an
instant are a date that the calendar has and a time that the clock shows, so they are
accepted, and what they name is the instant again, less the fraction of its second
(`readHttpDate?_httpDate`). -/
namespace Sinkhole.Time

open Text

/-! ### Numbers -/

theorem leadingDigits_append {most : Nat} {digits : List Char} {c : Char}
    (h : ∀ d ∈ digits, d.isDigit = true) (hmost : digits.length ≤ most) (hc : c.isDigit = false)
    (rest : List Char) : leadingDigits most (digits ++ c :: rest) = (digits, c :: rest) := by
  have hstop : ((c :: rest).take (most - digits.length)).takeWhile Char.isDigit = [] := by
    cases most - digits.length with
    | zero => rfl
    | succ more => exact List.takeWhile_cons_of_neg (by simp [hc])
  have htaken : ((digits ++ c :: rest).take most).takeWhile Char.isDigit = digits := by
    rw [List.take_append, List.take_of_length_le hmost, List.takeWhile_append_of_pos h, hstop,
      List.append_nil]
  rw [leadingDigits, htaken, List.drop_left]

/-- A padded number is read up to the first character that is no digit. -/
theorem number?_padded {least most width n : Nat} {c : Char} (hwidth : 0 < width)
    (hn : n < 10 ^ width) (hleast : least ≤ width) (hmost : width ≤ most)
    (hc : c.isDigit = false) (rest : List Char) :
    number? least most ((padded width n).toList ++ c :: rest) = some (n, c :: rest) := by
  have hlength := length_padded hwidth hn
  rw [number?, leadingDigits_append isDigit_padded (hlength.trans_le hmost) hc]
  dsimp only
  rw [hlength, if_neg (Nat.not_lt.mpr hleast), natural?_padded]
  rfl

/-! ### Names -/

/-- Names of three letters that differ even where case does not count. -/
structure Distinct (names : List String) : Prop where
  length_eq : ∀ name ∈ names, name.toList.length = 3
  apart : names.Pairwise fun a b => lower a.toList ≠ lower b.toList
  graphic : ∀ name ∈ names, name.toList.all (!isBlank ·) = true

theorem distinct_dayNames : Distinct dayNames := ⟨by decide, by decide, by decide +kernel⟩

theorem distinct_monthNames : Distinct monthNames := ⟨by decide, by decide, by decide +kernel⟩

variable {names : List String} {i : Nat}

theorem Distinct.isBlank_eq_false (h : Distinct names) {name : String} (hname : name ∈ names) :
    ∀ c ∈ name.toList, isBlank c = false := fun c hc => by
  simpa using List.all_eq_true.mp (h.graphic name hname) c hc

theorem getD_mem (hi : i < names.length) : names.getD i "" ∈ names := by
  rw [List.getD_eq_getElem names "" hi]
  exact List.getElem_mem hi

/-- Each name is found at its own place. -/
theorem name?_append (h : Distinct names) (hi : i < names.length) (rest : List Char) :
    name? names ((names.getD i "").toList ++ rest) = some (i, rest) := by
  have hlength := h.length_eq _ (getD_mem hi)
  have hfound : names.findIdx? (fun name => lower name.toList == lower (names.getD i "").toList) =
      some i := by
    rw [List.getD_eq_getElem names "" hi]
    refine List.findIdx?_eq_some_iff_getElem.mpr ⟨hi, beq_self_eq_true _, fun j hji hsame => ?_⟩
    have hapart := List.pairwise_iff_getElem.mp h.apart j i (Nat.lt_trans hji hi) hi hji
    exact hapart (beq_iff_eq.mp hsame)
  rw [name?, List.take_left' hlength, hfound, List.drop_left' hlength]

theorem dayPart?_append (hi : i < 7) (rest : List Char) :
    dayPart? ((dayNames.getD i "").toList ++ ',' :: rest) = some (some i, rest) := by
  have hname := name?_append distinct_dayNames hi (',' :: rest)
  simp only [dayPart?, hname]

/-! ### Blanks -/

theorem trimStart_append {word : List Char} (hne : word ≠ []) (h : ∀ c ∈ word, isBlank c = false)
    (rest : List Char) : trimStart (word ++ rest) = word ++ rest := by
  cases word with
  | nil => exact absurd rfl hne
  | cons c word => exact List.dropWhile_cons_of_neg (by simp [h c List.mem_cons_self])

theorem trimStart_blank (cs : List Char) : trimStart (' ' :: cs) = trimStart cs :=
  List.dropWhile_cons_of_pos rfl

theorem isBlank_of_isDigit {c : Char} (h : c.isDigit = true) : isBlank c = false := by
  obtain ⟨hlow, hhigh⟩ : 48 ≤ c.toNat ∧ c.toNat ≤ 57 := by
    simp only [Char.isDigit, Bool.and_eq_true, decide_eq_true_eq, ge_iff_le,
      UInt32.le_iff_toNat_le] at h
    exact h
  exact isBlank_of_graphic (by omega) (by omega)

theorem trimStart_padded (width n : Nat) (rest : List Char) :
    trimStart ((padded width n).toList ++ rest) = (padded width n).toList ++ rest :=
  trimStart_append (padded_ne_nil width n) (fun c hc => isBlank_of_isDigit (isDigit_padded c hc))
    rest

theorem trimStart_name (h : Distinct names) (hi : i < names.length) (rest : List Char) :
    trimStart ((names.getD i "").toList ++ rest) = (names.getD i "").toList ++ rest := by
  refine trimStart_append ?_ (h.isBlank_eq_false (getD_mem hi)) rest
  exact List.ne_nil_of_length_eq_add_one (h.length_eq _ (getD_mem hi))

theorem blanks?_padded (width n : Nat) (rest : List Char) :
    blanks? (' ' :: ((padded width n).toList ++ rest)) = some ((padded width n).toList ++ rest) :=
  congrArg some (trimStart_padded width n rest)

theorem colon?_padded (width n : Nat) (rest : List Char) :
    colon? (':' :: ((padded width n).toList ++ rest)) = some ((padded width n).toList ++ rest) :=
  congrArg some (trimStart_padded width n rest)

theorem blanks?_name (h : Distinct names) (hi : i < names.length) (rest : List Char) :
    blanks? (' ' :: ((names.getD i "").toList ++ rest)) =
      some ((names.getD i "").toList ++ rest) :=
  congrArg some (trimStart_name h hi rest)

/-! ### Parts that are numbers -/

theorem dayNumber_padded {day : Nat} (h : day < 10 ^ 2) (rest : List Char) :
    number? 1 2 (trimStart (' ' :: ((padded 2 day).toList ++ ' ' :: rest))) =
      some (day, ' ' :: rest) := by
  rw [trimStart_blank, trimStart_padded]
  exact number?_padded (by decide) h (by decide) (by decide) rfl rest

theorem yearPart?_padded {year : Nat} (h : year < 10 ^ 4) (rest : List Char) :
    yearPart? ((padded 4 year).toList ++ ' ' :: rest) = some (year, ' ' :: rest) := by
  have hlength := length_padded (by decide) h
  have hread : number? 2 ((padded 4 year).toList ++ ' ' :: rest).length
      ((padded 4 year).toList ++ ' ' :: rest) = some (year, ' ' :: rest) := by
    refine number?_padded (by decide) h (by decide) ?_ rfl rest
    rw [List.length_append, hlength]
    exact Nat.le_add_right _ _
  rw [yearPart?, hread]
  simp only [List.length_append, hlength, Nat.add_sub_cancel, Option.bind_eq_bind,
    Option.bind_some]
  rfl

theorem twoDigits {n : Nat} (h : n < 10 ^ 2) {c : Char} (hc : c.isDigit = false)
    (rest : List Char) : number? 2 2 ((padded 2 n).toList ++ c :: rest) = some (n, c :: rest) :=
  number?_padded (by decide) h (by decide) (by decide) hc rest

theorem secondPart?_padded {second : Nat} (h : second < 10 ^ 2) (rest : List Char) :
    secondPart? (':' :: ((padded 2 second).toList ++ ' ' :: rest)) = some (second, ' ' :: rest) := by
  have hread : number? 2 2 ((padded 2 second).toList ++ ' ' :: rest) = some (second, ' ' :: rest) :=
    twoDigits h rfl rest
  exact hread

/-! ### A whole date -/

/-- What a date in a header is made of; the day's name by its place. -/
structure Parts where
  dayName : Nat
  date : Date
  hour : Nat
  minute : Nat
  second : Nat

namespace Parts

def text (p : Parts) : List Char :=
  (dayNames.getD p.dayName "").toList ++ ',' :: ' ' ::
    ((padded 2 p.date.day).toList ++ ' ' ::
      ((monthNames.getD (p.date.month - 1) "").toList ++ ' ' ::
        ((yearText p.date.year).toList ++ ' ' ::
          ((padded 2 p.hour).toList ++ ':' ::
            ((padded 2 p.minute).toList ++ ':' ::
              ((padded 2 p.second).toList ++ [' ', 'G', 'M', 'T']))))))

/-- A date that the calendar has, on its day of the week, in a year of four digits, and a
time that the clock shows. -/
structure Fit (p : Parts) : Prop where
  dayName_eq : p.dayName = weekday p.date.toDays
  isReal : p.date.isReal = true
  year_pos : 0 ≤ p.date.year
  year_le : p.date.year ≤ 9999
  hour_lt : p.hour < 24
  minute_lt : p.minute < 60
  second_le : p.second ≤ 60

variable {p : Parts}

theorem trim_text (h : p.dayName < 7) : trim p.text = p.text := by
  have hmem : dayNames.getD p.dayName "" ∈ dayNames := getD_mem h
  obtain ⟨c, name, hname⟩ :=
    List.exists_cons_of_length_eq_add_one (distinct_dayNames.length_eq _ hmem)
  have hc : isBlank c = false :=
    distinct_dayNames.isBlank_eq_false hmem c (hname ▸ List.mem_cons_self)
  have hhead : p.text.head? = some c := by
    rw [text, hname]
    rfl
  have hlast : p.text.getLast? = some 'T' := by
    simp [text, List.getLast?_append, List.getLast?_cons]
  have hends : Unpadded p.text := by
    constructor
    · rw [hhead]
      rintro d ⟨rfl⟩
      exact hc
    · rw [hlast]
      rintro d ⟨rfl⟩
      rfl
  exact trim_self hends

/-- Each reader takes its part of the text. -/
theorem readHttpDate?_text {t : Instant} (h : p.Fit)
    (ht : instantAt? p.date p.hour p.minute p.second 0 = some t) :
    readHttpDate? p.text = some t := by
  obtain ⟨hname, hreal, hpos, hle, hhour, hminute, hsecond⟩ := h
  have hseven : p.dayName < 7 := hname ▸ weekday_lt _
  obtain ⟨hmonth, hyearEnd, hdays⟩ := Date.bounds_of_isReal hreal
  have hday : p.date.day < 10 ^ 2 := by omega
  have hyear : p.date.year.toNat < 10 ^ 4 := by omega
  have hyearText : yearText p.date.year = padded 4 p.date.year.toNat := if_pos ⟨hpos, hle⟩
  have hplace : p.date.month - 1 < monthNames.length := by
    show p.date.month - 1 < 12
    omega
  rw [readHttpDate?, trim_text hseven, text, hyearText]
  -- the date: a part, then the blank before the next one
  refine Option.bind_eq_some_iff.mpr ⟨_, dayPart?_append hseven _, ?_⟩
  refine Option.bind_eq_some_iff.mpr ⟨_, dayNumber_padded hday _, ?_⟩
  refine Option.bind_eq_some_iff.mpr ⟨_, blanks?_name distinct_monthNames hplace _, ?_⟩
  refine Option.bind_eq_some_iff.mpr ⟨_, name?_append distinct_monthNames hplace _, ?_⟩
  refine Option.bind_eq_some_iff.mpr ⟨_, blanks?_padded 4 _ _, ?_⟩
  refine Option.bind_eq_some_iff.mpr ⟨_, yearPart?_padded hyear _, ?_⟩
  -- the time of day
  refine Option.bind_eq_some_iff.mpr ⟨_, blanks?_padded 2 _ _, ?_⟩
  refine Option.bind_eq_some_iff.mpr ⟨_, twoDigits (by omega) rfl _, ?_⟩
  refine Option.bind_eq_some_iff.mpr ⟨_, colon?_padded 2 _ _, ?_⟩
  refine Option.bind_eq_some_iff.mpr ⟨_, twoDigits (by omega) rfl _, ?_⟩
  refine Option.bind_eq_some_iff.mpr ⟨_, secondPart?_padded (by omega) _, ?_⟩
  -- the zone, and nothing behind it
  refine Option.bind_eq_some_iff.mpr ⟨['G', 'M', 'T'], rfl, ?_⟩
  refine Option.bind_eq_some_iff.mpr ⟨(0, []), rfl, ?_⟩
  have hdate : (⟨p.date.year.toNat, p.date.month - 1 + 1, p.date.day⟩ : Date) = p.date := by
    rw [Int.toNat_of_nonneg hpos, Nat.sub_add_cancel hmonth]
  dsimp only
  rw [hdate, hname]
  refine Option.bind_eq_some_iff.mpr ⟨t, ht, ?_⟩
  simp [onlyComments]

end Parts

/-! ### Instants -/

namespace Instant

/-- The nanoseconds stay below a thousand million, except in a leap second, and such a second
only ends a minute. -/
def OnClock (t : Instant) : Prop :=
  t.nanos < 1000000000 ∨ (t.seconds % 60 = 59 ∧ t.nanos < 2000000000)

def year (t : Instant) : Int := (Date.ofDays t.day).year

/-- The start of the second that an instant is in; a leap second is one of its own. -/
def wholeSecond (t : Instant) : Instant :=
  { t with nanos := t.nanos / 1000000000 * 1000000000 }

def parts (t : Instant) : Parts where
  dayName := weekday t.day
  date := Date.ofDays t.day
  hour := t.secondOfDay / 3600
  minute := t.secondOfDay / 60 % 60
  second := t.secondOfDay % 60 + t.nanos / 1000000000

variable {t : Instant}

theorem ofMicros_onClock (n : Int) : (ofMicros n).OnClock := by
  refine .inl ?_
  show (n % 1000000).toNat * 1000 < 1000000000
  omega

theorem wholeSecond_ofMicros (n : Int) :
    (ofMicros n).wholeSecond = ofMicros (n / 1000000 * 1000000) := by
  simp only [wholeSecond, ofMicros, Instant.mk.injEq]
  omega

theorem seconds_eq (t : Instant) : t.seconds = t.day * 86400 + t.secondOfDay := by
  unfold day secondOfDay
  omega

theorem parts_fit (h : t.OnClock) (hpos : 1 ≤ t.year) (hle : t.year ≤ 9999) : t.parts.Fit where
  dayName_eq := congrArg weekday (Date.toDays_ofDays t.day).symm
  isReal := Date.isReal_ofDays t.day
  year_pos := Int.le_trans (by decide) hpos
  year_le := hle
  hour_lt := by
    show t.secondOfDay / 3600 < 24
    unfold secondOfDay
    omega
  minute_lt := Nat.mod_lt _ (by decide)
  second_le := by
    show t.secondOfDay % 60 + t.nanos / 1000000000 ≤ 60
    rcases h with h | ⟨-, h⟩ <;> omega

/-- The clock shows a leap second as the sixtieth, and at the end of a minute only. -/
theorem leap_cases (h : t.OnClock) : t.nanos / 1000000000 = 0 ∨
    (t.secondOfDay % 60 = 59 ∧ t.nanos / 1000000000 = 1) := by
  unfold secondOfDay
  rcases h with h | ⟨hlast, h⟩ <;> omega

/-- The time that the clock shows leads back to the second. -/
theorem made_of_parts (h : t.OnClock) :
    ({ seconds := t.parts.date.toDays * 86400 +
          ((t.parts.hour * 3600 + t.parts.minute * 60 + min t.parts.second 59 : Nat) : Int) - 0
       nanos := if t.parts.second = 60 then 1000000000 else 0 } : Instant) = t.wholeSecond := by
  have hshown : t.parts.second = t.secondOfDay % 60 + t.nanos / 1000000000 := rfl
  have hday : t.parts.date.toDays = t.day := Date.toDays_ofDays t.day
  have hhour : t.parts.hour = t.secondOfDay / 3600 := rfl
  have hminute : t.parts.minute = t.secondOfDay / 60 % 60 := rfl
  have hseconds := t.seconds_eq
  refine congrArg₂ Instant.mk ?_ ?_
  · rcases leap_cases h with hnone | ⟨hlast, hone⟩ <;> omega
  · rcases leap_cases h with hnone | ⟨hlast, hone⟩
    · rw [if_neg (by omega), hnone]
    · rw [if_pos (by omega), hone]

theorem isHeld_wholeSecond (hpos : 1 ≤ t.year) (hle : t.year ≤ 9999) :
    t.wholeSecond.isHeld = true := by
  have hyear : (Date.ofDays t.wholeSecond.day).year = t.year := rfl
  simp only [isHeld, hyear, firstYear, lastYear, Bool.and_eq_true, decide_eq_true_eq]
  omega

/-- What the parts of an instant name is its second. -/
theorem instantAt?_parts (h : t.OnClock) (hpos : 1 ≤ t.year) (hle : t.year ≤ 9999) :
    instantAt? t.parts.date t.parts.hour t.parts.minute t.parts.second 0 =
      some t.wholeSecond := by
  obtain ⟨-, hreal, -, -, hhour, hminute, hsecond⟩ := parts_fit h hpos hle
  have hyear : t.parts.date.year = t.year := rfl
  have hkept : firstYear ≤ t.parts.date.year ∧ t.parts.date.year ≤ lastYear := by
    simp only [hyear, firstYear, lastYear]
    omega
  simp only [instantAt?, made_of_parts h]
  rw [if_pos (by simp [hreal, hhour, hminute, hsecond]),
    if_pos (by simp [hkept, isHeld_wholeSecond hpos hle])]

end Instant

theorem toList_httpDate (t : Instant) : (httpDate t).toList = t.parts.text := by
  simp [httpDate, Instant.clockText, Parts.text, Instant.parts]

/-- **A date that is written in a header is read as the second it was written in.** -/
theorem readHttpDate?_httpDate {t : Instant} (h : t.OnClock) (hpos : 1 ≤ t.year)
    (hle : t.year ≤ 9999) : readHttpDate? (httpDate t).toList = some t.wholeSecond := by
  rw [toList_httpDate]
  exact Parts.readHttpDate?_text (Instant.parts_fit h hpos hle)
    (Instant.instantAt?_parts h hpos hle)

/-- The last microsecond of the first second of the year 1. -/
theorem readHttpDate?_httpDate_firstYear :
    httpDate (.ofMicros (-62135596799000001)) = "Mon, 01 Jan 0001 00:00:00 GMT" ∧
      readHttpDate? (httpDate (.ofMicros (-62135596799000001))).toList =
        some (.ofMicros (-62135596800000000)) := by
  refine ⟨by decide +kernel, ?_⟩
  rw [readHttpDate?_httpDate (Instant.ofMicros_onClock _) (by decide) (by decide),
    Instant.wholeSecond_ofMicros]
  rfl

end Sinkhole.Time
