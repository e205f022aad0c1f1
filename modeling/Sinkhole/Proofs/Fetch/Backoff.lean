import Mathlib.Algebra.Group.Nat.Defs
import Mathlib.Order.MinMax
import Mathlib.Order.Monotone.Defs
import Sinkhole.Fetch.Backoff

/-! How long is waited before a request is sent again.

A wait is the base, doubled once for each earlier retry, or a minute if that is more. On
the way there a factor or a product that does not fit 64 bits gives way to the greatest
number that does. This shows nowhere: a base of 0 gives no wait whatever the factor is,
and with any other base the wait has come to a minute long before. The same wait is found
in machine words, and none of them wraps around (`backoff_doubled`). -/
namespace Sinkhole.Fetch

variable {base retry : Nat}

/-! ### Doubling -/

theorem longestWait_le_mostMillis : longestWait ≤ mostMillis := by decide

/-- As long as the factor fits, a product that does not is past a minute anyway. -/
theorem backoff_of_lt (h : retry - 1 < 64) :
    backoff base retry = min (base * 2 ^ (retry - 1)) longestWait := by
  rw [backoff, if_pos h]
  exact (min_assoc _ _ _).trans (congrArg _ (min_eq_right longestWait_le_mostMillis))

/-- Once the factor does not fit, any wait there is takes a minute. -/
theorem backoff_of_le (hbase : 0 < base) (h : 64 ≤ retry - 1) :
    backoff base retry = longestWait := by
  have hproduct : mostMillis ≤ base * mostMillis := Nat.le_mul_of_pos_left _ hbase
  rw [backoff, if_neg (Nat.not_lt.mpr h)]
  exact (congrArg (min · longestWait) (min_eq_right hproduct)).trans
    (min_eq_right longestWait_le_mostMillis)

/-- The factor that does not fit would have led past a minute as well. -/
theorem longestWait_le_doubled (hbase : 0 < base) (h : 64 ≤ retry - 1) :
    longestWait ≤ base * 2 ^ (retry - 1) :=
  calc longestWait ≤ 2 ^ 64 := by decide
    _ ≤ 2 ^ (retry - 1) := Nat.pow_le_pow_right Nat.two_pos h
    _ ≤ base * 2 ^ (retry - 1) := Nat.le_mul_of_pos_left _ hbase

theorem backoff_eq (base retry : Nat) :
    backoff base retry = min (base * 2 ^ (max retry 1 - 1)) longestWait := by
  have hearlier : max retry 1 - 1 = retry - 1 := by omega
  rw [hearlier]
  rcases Nat.lt_or_ge (retry - 1) 64 with hfits | hfar
  · exact backoff_of_lt hfits
  · -- Past the last factor that fits, only a base of 0 still keeps the product small.
    rcases Nat.eq_zero_or_pos base with rfl | hbase
    · simp [backoff]
    · rw [backoff_of_le hbase hfar, min_eq_right (longestWait_le_doubled hbase hfar)]

theorem backoff_mono_base (retry : Nat) : Monotone (backoff · retry) := by
  intro base base' h
  show backoff base retry ≤ backoff base' retry
  rw [backoff_eq, backoff_eq]
  exact min_le_min_right _ (Nat.mul_le_mul_right _ h)

theorem backoff_mono_retry (base : Nat) : Monotone (backoff base) := by
  intro retry retry' h
  have hearlier : max retry 1 - 1 ≤ max retry' 1 - 1 := by omega
  rw [backoff_eq, backoff_eq]
  exact min_le_min_right _ (Nat.mul_le_mul_left _ (Nat.pow_le_pow_right Nat.two_pos hearlier))

/-! ### In machine words

A word has no place for a bit that is shifted as far as the word is long, and a product of
words wraps around if it does not fit. Both are seen to beforehand. -/

def greatestWord : UInt64 := 18446744073709551615

/-- The word with only this bit set, if it has such a bit. -/
def bit? (place : UInt32) : Option UInt64 :=
  if place < 64 then some (1 <<< place.toUInt64) else none

/-- The product, or the greatest word if the product wrapped around. -/
def boundedProduct (a b : UInt64) : UInt64 :=
  if a.toBitVec.umulOverflow b.toBitVec then greatestWord else a * b

/-- The number of retries before this one. -/
def earlierRetries (retry : UInt32) : UInt32 := if retry = 0 then 0 else retry - 1

/-- The wait, found in words alone. -/
def wordBackoff (base : UInt64) (retry : UInt32) : UInt64 :=
  min (boundedProduct base ((bit? (earlierRetries retry)).getD greatestWord)) 60000

theorem toNat_greatestWord : greatestWord.toNat = mostMillis := by decide

theorem toNat_earlierRetries (retry : UInt32) :
    (earlierRetries retry).toNat = retry.toNat - 1 := by
  rw [earlierRetries]
  by_cases h : retry = 0
  · rw [if_pos h, h]
    rfl
  · have hpos : retry.toNat ≠ 0 := fun hzero => h (UInt32.toNat_inj.mp hzero)
    have hone : 1 ≤ retry := UInt32.le_iff_toNat_le.mpr (Nat.one_le_iff_ne_zero.mpr hpos)
    rw [if_neg h]
    exact UInt32.toNat_sub_of_le _ _ hone

theorem toNat_bit? (place : UInt32) : ((bit? place).getD greatestWord).toNat =
    if place.toNat < 64 then Nat.pow 2 place.toNat else mostMillis := by
  rw [bit?]
  by_cases h : place.toNat < 64
  · have hplace : place < 64 := UInt32.lt_iff_toNat_lt.mpr h
    have hfits : 2 ^ place.toNat < 2 ^ 64 := Nat.pow_lt_pow_right Nat.one_lt_two h
    rw [if_pos h, if_pos hplace, Option.getD_some, UInt64.toNat_shiftLeft, UInt32.toNat_toUInt64,
      Nat.mod_eq_of_lt h, UInt64.toNat_one, Nat.one_shiftLeft, Nat.mod_eq_of_lt hfits]
    rfl
  · have hplace : ¬place < 64 := fun hlt => h (UInt32.lt_iff_toNat_lt.mp hlt)
    rw [if_neg h, if_neg hplace, Option.getD_none, toNat_greatestWord]

theorem toNat_boundedProduct (a b : UInt64) :
    (boundedProduct a b).toNat = min (a.toNat * b.toNat) mostMillis := by
  have hmost : mostMillis + 1 = 2 ^ 64 := by decide
  have hoverflow : a.toBitVec.umulOverflow b.toBitVec = true ↔ 2 ^ 64 ≤ a.toNat * b.toNat :=
    decide_eq_true_iff
  rw [boundedProduct]
  by_cases h : 2 ^ 64 ≤ a.toNat * b.toNat
  · rw [if_pos (hoverflow.mpr h), toNat_greatestWord]
    omega
  · rw [if_neg (mt hoverflow.mp h), UInt64.toNat_mul, Nat.mod_eq_of_lt (Nat.not_le.mp h)]
    omega

theorem toNat_wordBackoff (base : UInt64) (retry : UInt32) :
    (wordBackoff base retry).toNat = backoff base.toNat retry.toNat := by
  rw [wordBackoff, UInt64.toNat_min, toNat_boundedProduct, toNat_bit?, toNat_earlierRetries]
  rfl

/-- **A wait is the base doubled for each earlier retry, and a minute at most.** Words come to the
same wait, and neither a greater base nor a later retry makes it shorter. -/
theorem backoff_doubled :
    (∀ base retry : Nat, backoff base retry = min (base * 2 ^ (max retry 1 - 1)) 60000) ∧
    (∀ (base : UInt64) (retry : UInt32),
      (wordBackoff base retry).toNat = backoff base.toNat retry.toNat) ∧
    (∀ retry, Monotone (backoff · retry)) ∧
    ∀ base, Monotone (backoff base) :=
  ⟨backoff_eq, toNat_wordBackoff, backoff_mono_base, backoff_mono_retry⟩

example : (List.range 7).map (backoff 2000) = [2000, 2000, 4000, 8000, 16000, 32000, 60000] := by
  decide

end Sinkhole.Fetch
