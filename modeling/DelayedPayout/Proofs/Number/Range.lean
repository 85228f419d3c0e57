import DelayedPayout.Proofs.Number.HalfUp
import Mathlib.Algebra.Ring.Parity

/-!
The range of binary numbers. In a format with an even base a value is rounded below a power of the base iff
it is below it by more than half a last place (`Precision.value_round_lt_power_iff`). So the least integer
that is too large for a binary number is `overflow`, and exactly what is below it on both sides of zero has
a nearest one (`Binary64.ofRat?_eq_none_iff`). A finite number is rounded to itself, so that a part of it
is finite too (`Finite64.exists_mul_of_le_one`).
-/

namespace DelayedPayout.Number

/-! ## Rounding below a power of the base -/

namespace Precision

variable {p : Precision} {x : Rat} {k : Int}

/-- Below a power of the base there are values with the last place that it bounds. -/
theorem power_eq_mul_lastPlace (hb : 1 < p.base) (k : Int) :
    power p.base k = (p.base ^ p.digits : Nat) * power p.base (k - p.digits) := by
  rw [← power_natCast, ← power_add hb, add_sub_cancel]

theorem lastExponent_of_below (hb : 1 < p.base) (hd : 0 < p.digits)
    (hk : p.leastExponent ≤ k - p.digits)
    (hle : ((p.base ^ p.digits : Nat) - 1 : Rat) * power p.base (k - p.digits) ≤ x)
    (hlt : x < power p.base k) : p.lastExponent x = k - p.digits := by
  have hpos := power_pos hb (k - p.digits)
  have hfewer : p.base ^ (p.digits - 1) + 1 ≤ p.base ^ p.digits :=
    Nat.pow_lt_pow_right hb (by omega)
  have hfewer' : ((p.base ^ (p.digits - 1) : Nat) : Rat) ≤ (p.base ^ p.digits : Nat) - 1 := by
    have : ((p.base ^ (p.digits - 1) + 1 : Nat) : Rat) ≤ (p.base ^ p.digits : Nat) :=
      Nat.cast_le.mpr hfewer
    push_cast at this ⊢
    linarith
  have hpred : power p.base (k - 1) ≤ x := by
    have hsum : k - 1 = ((p.digits - 1 : Nat) : Int) + (k - p.digits) := by omega
    rw [hsum, power_add hb, power_natCast]
    refine le_trans ?_ hle
    gcongr
  rw [lastExponent_eq hb hpred hlt, max_eq_right hk]

/-- **Rounding up to a power of the base.** It begins at half a last place below the power: the last digit
below is odd, so that the tie goes up. -/
theorem value_round_lt_power_iff (hb : 1 < p.base) (heven : Even p.base) (hd : 0 < p.digits)
    (hk : p.leastExponent ≤ k - p.digits) (hx : 0 ≤ x) :
    (p.round x).value p.base < power p.base k ↔
      x < power p.base k - power p.base (k - p.digits) / 2 := by
  have hpos := power_pos hb (k - p.digits)
  have hvalue : ∀ y : Rat, 0 ≤ y →
      ((p.base ^ p.digits : Nat) - 1 : Rat) * power p.base (k - p.digits) ≤ y → y < power p.base k →
      (p.round y).value p.base =
        nearest (y / power p.base (k - p.digits)) * power p.base (k - p.digits) := by
    intro y hy hle hlt
    rw [value_round hb hd hy, lastExponent_of_below hb hd hk hle hlt]
  have hmany : Even (p.base ^ p.digits) := heven.pow_of_ne_zero hd.ne'
  have hone : (1 : Rat) ≤ (p.base ^ p.digits : Nat) :=
    Nat.one_le_cast.mpr (Nat.one_le_pow _ _ (by omega))
  rw [power_eq_mul_lastPlace hb k] at hvalue ⊢
  generalize power p.base (k - p.digits) = u at hpos hvalue ⊢
  generalize p.base ^ p.digits = n at hmany hone hvalue ⊢
  have hu : u ≤ n * u := le_mul_of_one_le_left hpos.le hone
  constructor
  · intro hround
    apply lt_of_not_ge
    intro hge
    have htie : (n : Rat) * u - u / 2 = (((n - 1 : Int) : Rat) + 1 / 2) * u := by
      push_cast
      ring
    have hup : (n - 1 : Int) + (n - 1 : Int) % 2 = n := by
      obtain ⟨m, hm⟩ := hmany
      omega
    have hmono := value_round_mono hb hd (by linarith) hge
    rw [hvalue _ (by linarith) (by linarith) (by linarith), htie, mul_div_cancel_right₀ _ hpos.ne',
      nearest_add_half, hup, Int.cast_natCast] at hmono
    exact absurd hround (not_lt.mpr hmono)
  · intro hlt
    have hmono := value_round_mono hb hd hx (le_max_left x ((n - 1) * u))
    have hbelow : max x ((n - 1) * u) < n * u - u / 2 := max_lt hlt (by linarith)
    have hbelow' : (n - 1) * u ≤ max x ((n - 1) * u) := le_max_right x _
    generalize max x ((n - 1) * u) = y at hmono hbelow hbelow'
    have hdown : nearest (y / u) = n - 1 := by
      apply nearest_eq_of_abs_lt
      push_cast
      rw [div_sub' hpos.ne', abs_div, abs_of_pos hpos, div_lt_iff₀ hpos, abs_lt]
      constructor <;> linarith
    rw [hvalue y (by linarith) hbelow' (by linarith), hdown] at hmono
    push_cast at hmono
    linarith

end Precision

/-! ## Binary numbers -/

theorem binary64_even : Even binary64.base := by decide

/-- The least integer that is too large for a binary number. -/
def overflow : Int := 2 ^ 1024 - 2 ^ 970

theorem overflow_eq : (overflow : Rat) = power 2 1024 - power 2 971 / 2 := by
  have hhalf : power 2 971 / 2 = power 2 970 := by
    rw [power_eq_zpow, power_eq_zpow, Nat.cast_ofNat, div_eq_iff two_ne_zero, ← zpow_add_one₀ two_ne_zero]
    rfl
  rw [hhalf, overflow, Int.cast_sub, Int.cast_pow, Int.cast_pow, power_eq_zpow, power_eq_zpow,
    zpow_ofNat, zpow_ofNat]
  rfl

/-- The rounded numbers that the format admits are those of its range. -/
theorem isCanonical_round_iff_value {x : Rat} (hx : 0 ≤ x) :
    IsCanonical (binary64.round x) ↔ (binary64.round x).value 2 < power 2 1024 := by
  constructor
  · intro hcan
    have hlt := Finite64.abs_value_lt_of_le (x := ⟨false, binary64.round x, hcan⟩) hcan.2.2.1
    rw [Finite64.abs_value] at hlt
    exact hlt
  · intro hlt
    have hc := Precision.coefficient_round_lt binary64_base binary64_digits hx
    have hc' := Precision.le_coefficient_round binary64_base binary64_digits hx
    have he := Precision.leastExponent_le_exponent_round binary64 x
    refine ⟨hc, he, ?_, hc'⟩
    apply le_of_not_gt
    intro hbig
    have hfull : 2 ^ 52 ≤ (binary64.round x).coefficient := by
      refine hc'.resolve_right ?_
      show _ ≠ (-1074 : Int)
      omega
    have hle : power 2 52 * power 2 972 ≤ (binary64.round x).value 2 := by
      have hcoefficient : power 2 52 ≤ (binary64.round x).coefficient := Nat.cast_le.mpr hfull
      have hpower : power 2 972 ≤ power 2 (binary64.round x).exponent :=
        power_le_power binary64_base hbig
      exact mul_le_mul hcoefficient hpower (power_pos binary64_base _).le (Nat.cast_nonneg _)
    rw [← power_add Nat.one_lt_two] at hle
    exact absurd hlt (not_lt.mpr hle)

/-- **The range of the format.** -/
theorem isCanonical_round_iff {x : Rat} (hx : 0 ≤ x) :
    IsCanonical (binary64.round x) ↔ x < overflow := by
  rw [isCanonical_round_iff_value hx, overflow_eq]
  exact Precision.value_round_lt_power_iff (k := 1024) binary64_base binary64_even binary64_digits
    (by decide) hx

namespace Binary64

variable {x y : Rat} {a b : Finite64}

theorem ofRat?_eq_none_iff : ofRat? x = none ↔ (overflow : Rat) ≤ |x| := by
  have habs : x.abs = |x| := by
    rcases le_total 0 x with hx | hx
    · rw [Rat.abs_of_nonneg hx, abs_of_nonneg hx]
    · rw [Rat.abs_of_nonpos hx, abs_of_nonpos hx]
  rw [← not_lt, ← isCanonical_round_iff (abs_nonneg x), ofRat?, habs, rounded, ofScaled]
  by_cases hcan : IsCanonical (binary64.round |x|)
  · simp [hcan]
  · simp [hcan]

theorem ofInt?_eq_none_iff {n : Int} : ofInt? n = none ↔ overflow ≤ |n| := by
  rw [ofInt?, ofRat?_eq_none_iff, ← Int.cast_abs, Int.cast_le]

theorem exists_ofInt?_iff {n : Int} : (∃ a, ofInt? n = some a) ↔ |n| < overflow := by
  rw [← Option.ne_none_iff_exists', ne_eq, ofInt?_eq_none_iff, not_le]

example : (ofInt? (overflow - 1)).isSome ∧ ofInt? overflow = none := by decide +kernel

/-- Of what is not negative and has a nearest number, this is what it is rounded to. -/
theorem value_of_ofRat?_eq_some (hx : 0 ≤ x) (h : ofRat? x = some a) :
    a.value = (binary64.round x).value 2 ∧ IsCanonical (binary64.round x) := by
  have hlt : x < overflow := by
    rw [← abs_of_nonneg hx]
    apply lt_of_not_ge
    intro hge
    rw [ofRat?_eq_none_iff.mpr hge] at h
    cases h
  have hcan := (isCanonical_round_iff hx).mpr hlt
  obtain ⟨b, hb, hvalue⟩ := ofRat?_of_isCanonical hx hcan
  cases h.symm.trans hb
  exact ⟨hvalue, hcan⟩

/-- What is below a rational that has a nearest number has one too, and no greater one. -/
theorem exists_ofRat?_of_le (hx : 0 ≤ x) (hle : x ≤ y) (h : ofRat? y = some b) :
    ∃ a, ofRat? x = some a ∧ a.value ≤ b.value := by
  obtain ⟨hb, hcan⟩ := value_of_ofRat?_eq_some (hx.trans hle) h
  have hlt := (isCanonical_round_iff (hx.trans hle)).mp hcan
  obtain ⟨a, ha, hvalue⟩ := ofRat?_of_isCanonical hx
    ((isCanonical_round_iff hx).mpr (hle.trans_lt hlt))
  refine ⟨a, ha, ?_⟩
  rw [hvalue, hb]
  exact Precision.value_round_mono binary64_base binary64_digits hx hle

end Binary64

namespace Finite64

variable {x y : Finite64}

/-- A number is rounded to itself. -/
theorem value_round_magnitude (x : Finite64) :
    (binary64.round x.magnitude).value 2 = x.magnitude := by
  rcases eq_or_lt_of_le x.magnitude_nonneg with hzero | hpos
  · rw [← hzero, Precision.round_zero, Precision.value_zero_scaled]
  · have hlt := x.abs_value_lt
    rw [abs_value] at hlt
    have hlast := Precision.lastExponent_le (p := binary64) binary64_base hpos hlt
    apply Precision.value_round_of_multiple (n := x.size.coefficient) (e := x.size.exponent)
      binary64_base binary64_digits hpos.le
    · refine hlast.trans (max_le x.canonical.2.1 ?_)
      show 53 + x.size.exponent - (53 : Nat) ≤ x.size.exponent
      omega
    · rfl

/-- A part of a finite number is finite: it is the exact part rounded once. -/
theorem exists_mul_of_le_one (hx : 0 ≤ x.value) (hle : x.value ≤ 1) (hy : 0 ≤ y.value) :
    ∃ z, x.mul y = .finite z ∧ z.value = (binary64.round (x.value * y.value)).value 2 := by
  have hpart : x.value * y.value ≤ y.value := mul_le_of_le_one_left hy hle
  have hmono := Precision.value_round_mono binary64_base binary64_digits (mul_nonneg hx hy) hpart
  apply mul_of_isCanonical hx hy
  rw [isCanonical_round_iff_value (mul_nonneg hx hy)]
  calc (binary64.round (x.value * y.value)).value 2 ≤ (binary64.round y.value).value 2 := hmono
    _ = y.value := by rw [← magnitude_eq_value hy, value_round_magnitude]
    _ ≤ |y.value| := le_abs_self _
    _ < power 2 1024 := abs_value_lt_of_le (k := 971) y.canonical.2.2.1

end Finite64

end DelayedPayout.Number
