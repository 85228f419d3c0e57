import DelayedPayout.Number.Binary64
import DelayedPayout.Proofs.Number.Rounding
import Mathlib.Tactic.NormNum

/-!
Binary numbers far below the largest one. Integers up to `2 ^ 53` are binary numbers
(`Binary64.ofInt?_eq_some`), and a product is the exact product rounded once (`Finite64.value_mul`).
-/

namespace DelayedPayout.Number

theorem binary64_base : 1 < binary64.base := by decide

theorem binary64_digits : 0 < binary64.digits := by decide

/-- Below `2 ^ 1023` a rounded value is within the range of the format. -/
theorem isCanonical_round {x : Rat} (hx : 0 ≤ x) (hlt : x < power 2 1023) :
    IsCanonical (binary64.round x) := by
  have hc := Precision.coefficient_round_lt binary64_base binary64_digits hx
  have hc' := Precision.le_coefficient_round binary64_base binary64_digits hx
  have he := Precision.leastExponent_le_exponent_round binary64 x
  have he' := Precision.exponent_round_le binary64_base hx hlt
  have hwidth : binary64.base ^ binary64.digits = 2 * leadingBit := by decide
  have hlead : binary64.base ^ (binary64.digits - 1) = leadingBit := by decide
  rw [hwidth] at hc
  rw [hlead] at hc'
  refine ⟨hc, he, ?_, hc'⟩
  simpa [binary64] using he'

namespace Finite64

theorem magnitude_nonneg (x : Finite64) : 0 ≤ x.magnitude :=
  mul_nonneg (Nat.cast_nonneg _) (power_pos binary64_base _).le

theorem magnitude_eq_value {x : Finite64} (h : 0 ≤ x.value) : x.magnitude = x.value := by
  have hm := x.magnitude_nonneg
  unfold value at h ⊢
  cases hneg : x.negative with
  | true =>
    rw [if_pos hneg] at h
    rw [if_pos rfl]
    linarith
  | false => exact (if_neg Bool.false_ne_true).symm

theorem magnitude_eq_zero {x : Finite64} (h : 0 ≤ x.value) (hneg : x.negative = true) :
    x.magnitude = 0 := by
  have hm := x.magnitude_nonneg
  rw [value, if_pos hneg] at h
  linarith

end Finite64

namespace Binary64

/-- Rounding a value that is zero wherever its sign is negative gives that value rounded. -/
theorem value_rounded (negative : Bool) {x : Rat} (hcan : IsCanonical (binary64.round x))
    (hneg : negative = true → x = 0) :
    ∃ y : Finite64, rounded negative x = .finite y ∧ y.value = (binary64.round x).value 2 := by
  refine ⟨⟨negative, binary64.round x, hcan⟩, dif_pos hcan, ?_⟩
  cases negative with
  | true =>
    rw [Finite64.value, if_pos rfl, Finite64.magnitude]
    simp only [hneg rfl]
    rw [Precision.round_zero, Precision.value_zero_scaled, neg_zero]
  | false => exact if_neg Bool.false_ne_true

/-- Rounding keeps a natural number of 53 bits. -/
theorem value_round_natCast {n : Nat} (h : n ≤ 2 ^ 53) :
    (binary64.round (n : Rat)).value 2 = n := by
  have hn : (0 : Rat) ≤ n := Nat.cast_nonneg n
  rcases Nat.eq_zero_or_pos n with rfl | hpos
  · rw [Nat.cast_zero, Precision.round_zero, Precision.value_zero_scaled]
  · have hpos' : (0 : Rat) < n := by exact_mod_cast hpos
    rcases Nat.lt_or_eq_of_le h with hlt | rfl
    · have hlt' : (n : Rat) < power 2 53 := Nat.cast_lt.mpr hlt
      have he := Precision.lastExponent_le (p := binary64) binary64_base hpos' hlt'
      apply Precision.value_round_of_multiple (n := n) (e := 0) binary64_base binary64_digits hn
      · simpa [binary64] using he
      · rw [power_eq_zpow, zpow_zero, mul_one]
    · have hlt' : ((2 ^ 53 : Nat) : Rat) < power 2 54 := Nat.cast_lt.mpr (by decide)
      have he := Precision.lastExponent_le (p := binary64) binary64_base hpos' hlt'
      apply Precision.value_round_of_multiple (n := 2 ^ 52) (e := 1) binary64_base binary64_digits hn
      · simpa [binary64] using he
      · rw [power_eq_zpow, zpow_one, ← Nat.cast_mul]
        rfl

/-- Below `2 ^ 52` rounding is off by a quarter at most. -/
theorem abs_value_round_sub_le {x : Rat} (hx : 0 ≤ x) (hlt : x < power 2 52) :
    |(binary64.round x).value 2 - x| ≤ 1 / 4 := by
  rcases eq_or_lt_of_le hx with rfl | hpos
  · rw [Precision.round_zero, Precision.value_zero_scaled]
    norm_num
  · have hlast := Precision.lastExponent_le binary64_base hpos hlt
    have hle : power 2 (binary64.lastExponent x) ≤ power 2 (-1) := power_le_power binary64_base hlast
    have herr : |(binary64.round x).value 2 - x| ≤ power 2 (binary64.lastExponent x) / 2 :=
      Precision.abs_value_round_sub_le binary64_base binary64_digits hx
    norm_num [power_eq_zpow] at hle herr
    linarith

/-- From `2 ^ 52` to `2 ^ 53` rounding goes to an integer, off by a half at most. -/
theorem exists_value_round_eq {x : Rat} (hx : power 2 52 ≤ x) (hle : x ≤ 2 ^ 53) :
    ∃ n : Int, (binary64.round x).value 2 = n ∧ |(n : Rat) - x| ≤ 1 / 2 := by
  have hpos : 0 ≤ x := (power_pos binary64_base 52).le.trans hx
  rcases lt_or_eq_of_le hle with hlt | rfl
  · have hlast : binary64.lastExponent x = 0 :=
      Precision.lastExponent_eq (k := 53) binary64_base hx
        (by rw [power_eq_zpow]; exact_mod_cast hlt)
    have hval : (binary64.round x).value 2 = nearest x := by
      have := Precision.value_round binary64_base binary64_digits hpos
      rw [hlast, power_eq_zpow, zpow_zero, div_one, mul_one] at this
      exact this
    exact ⟨nearest x, hval, abs_nearest_sub_le x⟩
  · refine ⟨2 ^ 53, ?_, by norm_num⟩
    have := value_round_natCast (n := 2 ^ 53) (le_refl _)
    push_cast at this ⊢
    exact this

/-- Within the range of the format a rational has a nearest number. -/
theorem ofRat?_of_isCanonical {x : Rat} (hx : 0 ≤ x) (hcan : IsCanonical (binary64.round x)) :
    ∃ y, ofRat? x = some y ∧ y.value = (binary64.round x).value 2 := by
  obtain ⟨y, hy, hval⟩ := value_rounded false hcan nofun
  have hsign : decide (x < 0) = false := decide_eq_false (not_lt.mpr hx)
  refine ⟨y, ?_, hval⟩
  rw [ofRat?, hsign, Rat.abs_of_nonneg hx, hy]

/-- Far below the largest number a rational has a nearest one. -/
theorem ofRat?_eq_some {x : Rat} (hx : 0 ≤ x) (hlt : x < power 2 1023) :
    ∃ y, ofRat? x = some y ∧ y.value = (binary64.round x).value 2 :=
  ofRat?_of_isCanonical hx (isCanonical_round hx hlt)

/-- An integer of 53 bits is a binary number. -/
theorem ofInt?_eq_some {n : Int} (hn : 0 ≤ n) (hle : n ≤ 2 ^ 53) :
    ∃ x, ofInt? n = some x ∧ x.value = n := by
  obtain ⟨k, rfl⟩ := Int.eq_ofNat_of_zero_le hn
  have hk : k ≤ 2 ^ 53 := by omega
  have hlt : (k : Rat) < power 2 1023 := by
    have hk' : k < 2 ^ 54 := by omega
    calc (k : Rat) < power 2 54 := Nat.cast_lt.mpr hk'
      _ ≤ power 2 1023 := power_le_power binary64_base (by omega)
  obtain ⟨y, hy, hval⟩ := ofRat?_eq_some (Nat.cast_nonneg k) hlt
  refine ⟨y, ?_, ?_⟩
  · rw [ofInt?, Int.cast_natCast, hy]
  · rw [hval, value_round_natCast hk, Int.cast_natCast]

end Binary64

namespace Finite64

/-- A product of numbers that are not negative is the exact product rounded once, within the range of the
format. -/
theorem mul_of_isCanonical {x y : Finite64} (hx : 0 ≤ x.value) (hy : 0 ≤ y.value)
    (hcan : IsCanonical (binary64.round (x.value * y.value))) :
    ∃ z, x.mul y = .finite z ∧ z.value = (binary64.round (x.value * y.value)).value 2 := by
  unfold mul
  rw [magnitude_eq_value hx, magnitude_eq_value hy]
  apply Binary64.value_rounded _ hcan
  intro hneg
  cases hxn : x.negative with
  | true => rw [← magnitude_eq_value hx, magnitude_eq_zero hx hxn, zero_mul]
  | false =>
    have hyn : y.negative = true := by simpa [hxn] using hneg
    rw [← magnitude_eq_value hy, magnitude_eq_zero hy hyn, mul_zero]

theorem value_mul {x y : Finite64} (hx : 0 ≤ x.value) (hy : 0 ≤ y.value)
    (hlt : x.value * y.value < power 2 1023) :
    ∃ z, x.mul y = .finite z ∧ z.value = (binary64.round (x.value * y.value)).value 2 :=
  mul_of_isCanonical hx hy (isCanonical_round (mul_nonneg hx hy) hlt)

end Finite64

end DelayedPayout.Number
