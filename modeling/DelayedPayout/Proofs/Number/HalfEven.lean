import DelayedPayout.Proofs.Number.HalfUp
import DelayedPayout.WholeNumber
import Mathlib.Data.Nat.Prime.Basic

/-!
Rounding half up on all numbers. From `10 ^ 28` on the sum of 28 digits has no place for the half: what
comes out is the number itself to 28 digits, as `HalfEven` describes it. Ties do not occur there, since the
odd part of a tie, as that of a power of ten, takes more than the 53 bits of a binary number. Main
statement: `wholeNumber_of_finite`.
-/

namespace DelayedPayout.Number

/-- The number `c * 10 ^ k` is `v` to so many significant decimal digits, and if there are two nearest
ones, the one with the even last digit. -/
structure HalfEven (digits : Nat) (v : Rat) (c k : Int) : Prop where
  le : (10 : Rat) ^ (k + digits - 1) ≤ |v|
  lt : |v| < (10 : Rat) ^ (k + digits)
  near : |v - c * (10 : Rat) ^ k| ≤ (10 : Rat) ^ k / 2
  even : |v - c * (10 : Rat) ^ k| = (10 : Rat) ^ k / 2 → c % 2 = 0

/-- Every number but zero can be rounded to so many digits. -/
theorem exists_halfEven (digits : Nat) {v : Rat} (hv : v ≠ 0) : ∃ c k, HalfEven digits v c k := by
  have hb : 1 < 10 := by decide
  have hle := power_pred_leadingPower_le hb (abs_pos.mpr hv)
  have hlt := lt_power_leadingPower hb (abs_pos.mpr hv)
  generalize leadingPower 10 |v| = lead at hle hlt
  obtain ⟨k, hk⟩ : ∃ k : Int, k + digits = lead := ⟨lead - digits, Int.sub_add_cancel _ _⟩
  rw [← hk, power_eq_zpow] at hle hlt
  have hpos : (0 : Rat) < 10 ^ k := zpow_pos (by norm_num) k
  have hscale := abs_nearest_mul_sub (x := v) hpos
  rw [abs_sub_comm] at hscale
  refine ⟨nearest (v / 10 ^ k), k, hle, hlt, ?_, ?_⟩
  · have := abs_nearest_sub_le (v / 10 ^ k)
    calc _ = |(nearest (v / 10 ^ k) : Rat) - v / 10 ^ k| * 10 ^ k := hscale
      _ ≤ 1 / 2 * (10 : Rat) ^ k := by gcongr
      _ = 10 ^ k / 2 := by ring
  · intro htie
    apply nearest_even_of_tie
    rw [abs_sub_comm]
    apply mul_right_cancel₀ hpos.ne'
    rw [← hscale, htie]
    ring

/-- Next to an integer of 29 digits or more that is no power of ten, a half does not change their count. -/
theorem lastExponent_add_half {n : Int} {j : Nat} (hle : 10 ^ (j + 28) < |n|)
    (hlt : |n| < 10 ^ (j + 29)) :
    decimal28.lastExponent |(n : Rat) + 1 / 2| = ((j + 1 : Nat) : Int) := by
  have hlow : ((10 ^ (j + 28) + 1 : Int) : Rat) ≤ ((|n| : Int) : Rat) := Int.cast_le.mpr hle
  have hhigh : ((|n| + 1 : Int) : Rat) ≤ ((10 ^ (j + 29) : Int) : Rat) := Int.cast_le.mpr hlt
  have hup := Finite64.abs_add_half_le n
  have hdown := Finite64.abs_add_half_le (-((n : Rat) + 1 / 2))
  rw [abs_neg, neg_add, neg_add_cancel_right, abs_neg] at hdown
  push_cast at hlow hhigh
  have hpow : ((j + 29 : Nat) : Int) - 1 = ((j + 28 : Nat) : Int) := by omega
  rw [Precision.lastExponent_eq (k := ((j + 29 : Nat) : Int)) decimal28_base]
  · simp only [decimal28]
    omega
  · show power 10 _ ≤ _
    rw [hpow, power_eq_zpow, zpow_natCast]
    push_cast
    linarith
  · show _ < power 10 _
    rw [power_eq_zpow, zpow_natCast]
    push_cast
    linarith

/-- Next to such an integer a half is lost, if only one number of 28 digits is nearest to it. -/
theorem nearestValue_add_half {n c : Int} {j : Nat} (hle : 10 ^ (j + 28) < |n|)
    (hlt : |n| < 10 ^ (j + 29)) (hnear : 2 * |n - c * 10 ^ (j + 1)| < 10 ^ (j + 1)) :
    decimal28.nearestValue (n + 1 / 2) = ((c * 10 ^ (j + 1) : Int) : Rat) := by
  have hnearest : nearest ((n + 1 / 2) / 10 ^ (j + 1)) = c := by
    have hpos : (0 : Rat) < 10 ^ (j + 1) := by positivity
    have hint : |n - c * 10 ^ (j + 1)| + 1 ≤ 5 * 10 ^ j := by
      rw [pow_succ] at hnear ⊢
      omega
    have hint' : |(n : Rat) - c * 10 ^ (j + 1)| + 1 ≤ 5 * 10 ^ j := by exact_mod_cast hint
    have hsum := Finite64.abs_add_half_le ((n : Rat) - c * 10 ^ (j + 1))
    apply nearest_eq_of_abs_lt
    rw [div_sub' hpos.ne', abs_div, abs_of_pos hpos, div_lt_iff₀ hpos]
    calc |(n : Rat) + 1 / 2 - 10 ^ (j + 1) * c| = |(n : Rat) - c * 10 ^ (j + 1) + 1 / 2| := by
          congr 1
          ring
      _ < 5 * 10 ^ j := by linarith
      _ = 1 / 2 * 10 ^ (j + 1) := by
          rw [pow_succ]
          ring
  rw [Precision.nearestValue_eq decimal28_base decimal28_digits, lastExponent_add_half hle hlt]
  show (nearest (_ / power 10 _) : Rat) * power 10 _ = _
  rw [power_eq_zpow, zpow_natCast]
  push_cast
  rw [hnearest]

namespace Finite64

variable {x : Finite64}

/-- The odd part of a number takes no more than 53 bits. -/
theorem odd_part_lt {d i : Nat} (hd : Odd d) (h : |x.value| = d * 2 ^ i) : d < 2 ^ 53 := by
  have hbits : x.size.coefficient < 2 ^ 53 := x.canonical.1
  -- Times a power of two both the number and its odd part are natural.
  obtain ⟨t, j, hj⟩ : ∃ t j : Nat, x.size.exponent + t = j :=
    ⟨1074, (x.size.exponent + 1074).toNat, (Int.toNat_of_nonneg (by
      have := x.canonical.2.1
      omega)).symm⟩
  have hnat : d * 2 ^ (i + t) = x.size.coefficient * 2 ^ j := by
    have hvalue : (x.size.coefficient : Rat) * power 2 x.size.exponent = d * 2 ^ i := by
      rw [← h, abs_value]
      rfl
    have hnum : (d : Rat) * 2 ^ i * power 2 t = x.size.coefficient * power 2 j := by
      rw [← hvalue, mul_assoc, ← power_add Nat.one_lt_two, hj]
    rw [power_natCast, power_natCast, mul_assoc] at hnum
    rw [pow_add]
    exact_mod_cast hnum
  have hcop : Nat.Coprime d (2 ^ j) := (Nat.coprime_two_right.mpr hd).pow_right j
  have hdvd : d ∣ x.size.coefficient := hcop.dvd_of_dvd_mul_right (hnat ▸ Nat.dvd_mul_right _ _)
  have hpos : 0 < x.size.coefficient * 2 ^ j := hnat ▸ Nat.mul_pos hd.pos (Nat.two_pow_pos _)
  exact (Nat.le_of_dvd (Nat.pos_of_mul_pos_right hpos) hdvd).trans_lt hbits

theorem abs_value_ne_pow {m : Nat} (hm : 28 ≤ m) : |x.value| ≠ 10 ^ m := by
  intro h
  have hodd : Odd (5 ^ m) := (by decide : Odd 5).pow
  have hvalue : |x.value| = ((5 ^ m : Nat) : Rat) * 2 ^ m := by
    rw [h]
    push_cast
    rw [← mul_pow]
    norm_num
  have hlt := odd_part_lt hodd hvalue
  have hle : 5 ^ 28 ≤ 5 ^ m := Nat.pow_le_pow_right (by decide) hm
  omega

/-- A tie is an odd multiple of half a unit. -/
theorem exists_odd_of_tie {v u : Rat} {c : Int} (h : |v - c * u| = u / 2) :
    ∃ m : Int, Odd m ∧ v = m * (u / 2) := by
  rcases eq_or_eq_neg_of_abs_eq h with h | h
  · refine ⟨2 * c + 1, ⟨c, rfl⟩, ?_⟩
    push_cast
    linarith
  · refine ⟨2 * c - 1, ⟨c - 1, by ring⟩, ?_⟩
    push_cast
    linarith

/-- From `10 ^ 28` on no number is a tie of 28 digits. -/
theorem not_tie {c : Int} {j : Nat} (hle : (10 : Rat) ^ (j + 28) ≤ |x.value|) :
    |x.value - c * 10 ^ (j + 1)| ≠ 10 ^ (j + 1) / 2 := by
  intro htie
  obtain ⟨m, hm, hvalue⟩ := exists_odd_of_tie htie
  have hodd : Odd (m.natAbs * 5 ^ (j + 1)) := hm.natAbs.mul (by decide : Odd 5).pow
  have hhalf : (10 : Rat) ^ (j + 1) / 2 = 5 ^ (j + 1) * 2 ^ j := by
    rw [show (10 : Rat) = 5 * 2 by norm_num, mul_pow, pow_succ 2]
    ring
  have habs : |x.value| = ((m.natAbs * 5 ^ (j + 1) : Nat) : Rat) * 2 ^ j := by
    rw [hvalue, hhalf, abs_mul, abs_of_pos (by positivity : (0 : Rat) < 5 ^ (j + 1) * 2 ^ j)]
    push_cast
    rw [Nat.cast_natAbs]
    push_cast
    ring
  have hlt := odd_part_lt hodd habs
  have hle' : 10 ^ (j + 28) ≤ m.natAbs * 5 ^ (j + 1) * 2 ^ j := by
    rw [habs] at hle
    exact_mod_cast hle
  have hlt' : m.natAbs * 5 ^ (j + 1) * 2 ^ j < 10 ^ (j + 28) := by
    calc m.natAbs * 5 ^ (j + 1) * 2 ^ j < 2 ^ 53 * 2 ^ j :=
          Nat.mul_lt_mul_of_pos_right hlt (Nat.two_pow_pos j)
      _ ≤ 10 ^ 28 * 10 ^ j := Nat.mul_le_mul (by decide) (Nat.pow_le_pow_left (by decide) j)
      _ = 10 ^ (j + 28) := by rw [pow_add, mul_comm]
  exact absurd hle' (not_le.mpr hlt')

/-- From `10 ^ 28` on a number is rounded to 28 digits. -/
theorem halfUp_of_halfEven {c k : Int} (hbig : 10 ^ 28 ≤ |x.value|)
    (h : HalfEven 28 x.value c k) : (x.halfUp : Rat) = c * (10 : Rat) ^ k := by
  obtain ⟨j, rfl⟩ : ∃ j : Nat, k = (j + 1 : Nat) := by
    have : (10 : Rat) ^ (28 : Int) < 10 ^ (k + (28 : Nat)) := lt_of_le_of_lt hbig h.lt
    have : 28 < k + (28 : Nat) := (zpow_lt_zpow_iff_right₀ (by norm_num)).mp this
    exact ⟨(k - 1).toNat, by omega⟩
  have hlow : ((j + 1 : Nat) : Int) + (28 : Nat) - 1 = ((j + 28 : Nat) : Int) := by omega
  have hhigh : ((j + 1 : Nat) : Int) + (28 : Nat) = ((j + 29 : Nat) : Int) := by omega
  have hle := h.le
  have hlt := h.lt
  have hnear := h.near
  rw [hlow, zpow_natCast] at hle
  rw [hhigh, zpow_natCast] at hlt
  rw [zpow_natCast] at hnear ⊢
  have hlarge : power 2 53 ≤ |x.value| := by
    refine le_trans ?_ hbig
    norm_num [power_eq_zpow]
  obtain ⟨n, hn⟩ := exists_value_eq_intCast (exponent_pos_of_large hlarge).le
  have hne := abs_value_ne_pow (x := x) (Nat.le_add_left 28 j)
  have htie := not_tie (c := c) hle
  rw [hn] at hle hlt hnear hne htie
  have hle' : 10 ^ (j + 28) < |n| := by exact_mod_cast lt_of_le_of_ne hle (Ne.symm hne)
  have hlt' : |n| < 10 ^ (j + 29) := by exact_mod_cast hlt
  have hnear' : 2 * |n - c * 10 ^ (j + 1)| < 10 ^ (j + 1) := by
    have := lt_of_le_of_ne hnear htie
    rw [lt_div_iff₀ two_pos, mul_comm] at this
    exact_mod_cast this
  rw [halfUp, hn, nearestValue_add_half hle' hlt' hnear', Rat.floor_intCast]
  push_cast
  rfl

/-- Rounding half up is monotone, whatever becomes of the digits. -/
theorem halfUp_mono {y : Finite64} (h : x.value ≤ y.value) : x.halfUp ≤ y.halfUp := by
  have hsum : x.value + 1 / 2 ≤ y.value + 1 / 2 := by linarith
  have hvalue := Precision.nearestValue_mono decimal28_base decimal28_digits hsum
  exact Rat.le_floor_iff.mpr ((Rat.floor_le _).trans hvalue)

/-- Below `10 ^ 28` the nearest integer is unique, a tie going up. -/
theorem halfUp_iff (h : |x.value| < 10 ^ 28) (m : Int) :
    (m : Rat) - 1 / 2 ≤ x.value ∧ x.value < m + 1 / 2 ↔ m = x.halfUp := by
  rw [halfUp_eq_floor h]
  constructor
  · rintro ⟨hle, hlt⟩
    symm
    apply floor_eq_of_between <;> linarith
  · rintro rfl
    have hle := Rat.floor_le (x.value + 1 / 2)
    have hlt := Rat.lt_floor_add_one (x.value + 1 / 2)
    push_cast at hlt
    constructor <;> linarith

end Finite64

end DelayedPayout.Number

namespace DelayedPayout

open Number

/-- **Whole numbers of binary numbers.** Every finite number has one. Below `10 ^ 28` it is the nearest
integer, a half going up; from there on it is the number to 28 digits, a half going to the even digit. It
never decreases where the number grows. -/
theorem wholeNumber_of_finite :
    (∀ x : Finite64, ∃ n, wholeNumber (.finite x) = .ok n ∧
      (|x.value| < 10 ^ 28 →
        ∀ m : Int, (m : Rat) - 1 / 2 ≤ x.value ∧ x.value < m + 1 / 2 ↔ m = n) ∧
      (10 ^ 28 ≤ |x.value| →
        ∃ c k, HalfEven 28 x.value c k ∧ (n : Rat) = c * (10 : Rat) ^ k)) ∧
    ∀ x y : Finite64, x.value ≤ y.value →
      ∃ m n, wholeNumber (.finite x) = .ok m ∧ wholeNumber (.finite y) = .ok n ∧ m ≤ n := by
  constructor
  · intro x
    refine ⟨x.halfUp, rfl, Finite64.halfUp_iff, fun hbig => ?_⟩
    have hne : x.value ≠ 0 := by
      intro h0
      rw [h0, abs_zero] at hbig
      norm_num at hbig
    obtain ⟨c, k, h⟩ := exists_halfEven 28 hne
    exact ⟨c, k, h, Finite64.halfUp_of_halfEven hbig h⟩
  · intro x y hle
    exact ⟨x.halfUp, y.halfUp, rfl, rfl, Finite64.halfUp_mono hle⟩

/-- A negative tie goes up; `2 ^ 94`, which has 29 digits, ends in a four that is dropped. -/
theorem wholeNumber_of_tie_and_large :
    wholeNumber (.ofBits 0xc004000000000000) = .ok (-2) ∧
      ((-2 : Int) : Rat) - 1 / 2 ≤ -5 / 2 ∧
      wholeNumber (.ofBits 0x45d0000000000000) = .ok 19807040628566084398385987580 ∧
      (∃ c k, HalfEven 28 (2 ^ 94) c k ∧
        ((19807040628566084398385987580 : Int) : Rat) = c * (10 : Rat) ^ k) ∧
      (-2 : Int) ≤ 19807040628566084398385987580 := by
  obtain ⟨x, hx, hxv⟩ : ∃ x, Binary64.ofBits 0xc004000000000000 = .finite x ∧ x.value = -5 / 2 :=
    ⟨⟨true, ⟨5629499534213120, -51⟩, by decide⟩, by decide +kernel⟩
  obtain ⟨y, hy, hyv⟩ : ∃ y, Binary64.ofBits 0x45d0000000000000 = .finite y ∧ y.value = 2 ^ 94 :=
    ⟨⟨false, ⟨4503599627370496, 42⟩, by decide⟩, by decide +kernel⟩
  obtain ⟨hall, hmono⟩ := wholeNumber_of_finite
  have htie : wholeNumber (.ofBits 0xc004000000000000) = .ok (-2) := by decide +kernel
  have hlarge : wholeNumber (.ofBits 0x45d0000000000000) = .ok 19807040628566084398385987580 := by
    decide +kernel
  obtain ⟨m, hm, hsmall, _⟩ := hall x
  obtain ⟨n, hn, _, hdigits⟩ := hall y
  obtain ⟨m', n', hm', hn', hle⟩ := hmono x y (by rw [hxv, hyv]; norm_num)
  rw [hxv] at hsmall
  rw [hyv] at hdigits
  rw [← hx, htie] at hm hm'
  rw [← hy, hlarge] at hn hn'
  cases hm
  cases hm'
  cases hn
  cases hn'
  have hbelow := hsmall (by norm_num [abs_lt]) (-2)
  have habove := hdigits (by rw [abs_of_pos (by norm_num)]; norm_num)
  exact ⟨htie, (hbelow.mpr rfl).1, hlarge, habove, hle⟩

end DelayedPayout
