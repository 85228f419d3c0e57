import DelayedPayout.Proofs.Number.HalfUp

/-!
Quotients of integers as binary numbers. Below `2 ^ 52` a tie between two integers is itself a binary
number, and a quotient below the tie is so by half of one over the denominator at least. A numerator below
`2 ^ 52` makes the last place of the quotient finer than that, so rounding the quotient to a binary number
first does not change what it is rounded to half up (`Finite64.halfUp_of_quotient`).
-/

namespace DelayedPayout.Number

/-- A quotient rounded half up in integers: it may be a tie below, and keeps clear of the tie above. -/
theorem halfUp_ediv_bounds (a : Int) {s : Nat} (hs : 0 < s) :
    (((2 * a + s) / (2 * s) : Int) : Rat) - 1 / 2 ≤ (a : Rat) / s ∧
      (a : Rat) / s + 1 / (2 * s) ≤ (((2 * a + s) / (2 * s) : Int) : Rat) + 1 / 2 := by
  have hs' : (0 : Rat) < s := Nat.cast_pos.mpr hs
  have hs'' : (0 : Int) < 2 * s := by omega
  have hle := Int.ediv_mul_le (2 * a + s) hs''.ne'
  have hlt := Int.lt_ediv_add_one_mul_self (2 * a + s) hs''
  generalize (2 * a + s) / (2 * (s : Int)) = n at hle hlt ⊢
  have hle' : ((n * (2 * s) : Int) : Rat) ≤ ((2 * a + s : Int) : Rat) := Int.cast_le.mpr hle
  have hlt' : ((2 * a + s + 1 : Int) : Rat) ≤ (((n + 1) * (2 * s) : Int) : Rat) :=
    Int.cast_le.mpr hlt
  push_cast at hle' hlt'
  constructor
  · rw [le_div_iff₀ hs']
    linarith
  · have hsum : (a : Rat) / s + 1 / (2 * s) = (2 * a + 1) / (2 * s) := by field_simp
    rw [hsum, div_le_iff₀ (by linarith)]
    linarith

theorem halfUp_ediv_eq_floor (a : Int) {s : Nat} (hs : 0 < s) :
    (2 * a + s) / (2 * s) = ((a : Rat) / s + 1 / 2).floor := by
  obtain ⟨hlow, hhigh⟩ := halfUp_ediv_bounds a hs
  have hstep : (0 : Rat) < 1 / (2 * s) := one_div_pos.mpr (mul_pos two_pos (Nat.cast_pos.mpr hs))
  symm
  apply floor_eq_of_between <;> linarith

theorem div_lt_power {a : Int} {s : Nat} (hs : 0 < s) (h0 : 0 ≤ a) (ha : a < 2 ^ 52) :
    (a : Rat) / s < power 2 52 := by
  calc (a : Rat) / s ≤ a := div_le_self (Int.cast_nonneg h0) (Nat.one_le_cast.mpr hs)
    _ < ((2 ^ 52 : Int) : Rat) := Int.cast_lt.mpr ha
    _ = power 2 52 := rfl

namespace Binary64

/-- A tie between integers below `2 ^ 52` is a binary number. -/
theorem value_round_tie {n : Nat} {t : Rat} (ht : t = n + 1 / 2) (hlt : t < power 2 52) :
    (binary64.round t).value 2 = t := by
  have hn : (0 : Rat) ≤ n := Nat.cast_nonneg n
  have hpos : 0 < t := by linarith
  have hlast := Precision.lastExponent_le binary64_base hpos hlt
  apply Precision.value_round_of_multiple (n := 2 * n + 1) (e := -1) binary64_base binary64_digits hpos.le
  · simpa [binary64] using hlast
  · show t = _ * power 2 (-1)
    rw [ht, power_eq_zpow]
    push_cast
    norm_num
    linarith

/-- The last place of a quotient is finer than one over the denominator. -/
theorem lastPlace_mul_lt {a : Int} {s : Nat} (hs : 0 < s) (ha : a < 2 ^ 52)
    (hx : 1 / 4 ≤ (a : Rat) / s) : power 2 (binary64.lastExponent (a / s)) * s < 1 := by
  have hs' : (0 : Rat) < s := Nat.cast_pos.mpr hs
  have hpos : (0 : Rat) < a / s := by linarith
  have hleast : binary64.lastExponent (a / s) ≠ binary64.leastExponent := by
    intro h
    have hlt := Precision.lt_power_lastExponent (p := binary64) binary64_base hpos
    rw [h, ← power_natCast, ← power_add binary64_base] at hlt
    have hle : power 2 (-1074 + 53) ≤ power 2 (-2) := power_le_power binary64_base (by omega)
    have hquarter : power 2 (-2) = 1 / 4 := by norm_num [power_eq_zpow]
    exact absurd (hx.trans_lt (hlt.trans_le hle)) (by linarith)
  have hle := Precision.power_lastExponent_le binary64_base binary64_digits hpos hleast
  have ha' : (a : Rat) < ((2 ^ 52 : Int) : Rat) := Int.cast_lt.mpr ha
  have hbits : ((binary64.base ^ (binary64.digits - 1) : Nat) : Rat) = ((2 ^ 52 : Int) : Rat) := rfl
  rw [le_div_iff₀ hs', hbits] at hle
  change power 2 _ * _ * _ ≤ _ at hle
  push_cast at ha' hle
  linarith

/-- Rounding a quotient moves it by less than half of one over the denominator. -/
theorem abs_value_round_div_sub_lt {a : Int} {s : Nat} (hs : 0 < s) (ha : a < 2 ^ 52)
    (hx : 1 / 4 ≤ (a : Rat) / s) :
    |(binary64.round (a / s)).value 2 - a / s| < 1 / (2 * s) := by
  have hs' : (0 : Rat) < s := Nat.cast_pos.mpr hs
  have herr := Precision.abs_value_round_sub_le (p := binary64) binary64_base binary64_digits
    (x := (a : Rat) / s) (by linarith)
  have hunit := lastPlace_mul_lt hs ha hx
  apply lt_of_le_of_lt herr
  rw [lt_div_iff₀ (by linarith)]
  show power 2 _ / 2 * _ < 1
  linarith

end Binary64

namespace Finite64

/-- **Rounding a quotient of integers to a binary number does not change what it is rounded to half
up**, if the numerator is below `2 ^ 52`. -/
theorem halfUp_of_quotient {y : Finite64} {a : Int} {s : Nat} (h0 : 0 ≤ a) (ha : a < 2 ^ 52)
    (hs : 0 < s) (hy : y.value = (binary64.round (a / s)).value 2) :
    y.halfUp = (2 * a + s) / (2 * s) := by
  obtain ⟨hlow, hhigh⟩ := halfUp_ediv_bounds a hs
  have hn : 0 ≤ (2 * a + s) / (2 * (s : Int)) := Int.ediv_nonneg (by omega) (by omega)
  generalize (2 * a + s) / (2 * (s : Int)) = n at hlow hhigh hn ⊢
  have hx : (0 : Rat) ≤ a / s := div_nonneg (Int.cast_nonneg h0) (Nat.cast_nonneg s)
  have hlt := div_lt_power hs h0 ha
  have hy0 : 0 ≤ y.value := hy ▸ Precision.value_round_nonneg binary64_base _
  have hquarter := abs_le.mp (Binary64.abs_value_round_sub_le hx hlt)
  rw [← hy] at hquarter
  have hbig : |y.value| < 10 ^ 28 := by
    norm_num [power_eq_zpow] at hlt
    rw [abs_lt]
    constructor <;> linarith
  rw [halfUp_eq_floor hbig]
  apply floor_eq_of_between
  -- A tie that the quotient reaches is reached by the binary number too.
  · obtain ⟨k, rfl⟩ := Int.eq_ofNat_of_zero_le hn
    cases k with
    | zero =>
      push_cast
      linarith
    | succ k =>
      have htie : (k : Rat) + 1 / 2 ≤ a / s := by
        push_cast at hlow
        linarith
      have hmono : (binary64.round (k + 1 / 2)).value 2 ≤ (binary64.round (a / s)).value 2 :=
        Precision.value_round_mono binary64_base binary64_digits (by positivity) htie
      rw [Binary64.value_round_tie rfl (htie.trans_lt hlt), ← hy] at hmono
      push_cast
      linarith
  -- A tie above the quotient is too far off.
  · by_cases hsmall : (a : Rat) / s < 1 / 4
    · have : (0 : Rat) ≤ n := Int.cast_nonneg hn
      linarith
    · have herr := abs_lt.mp (Binary64.abs_value_round_div_sub_lt hs ha (not_lt.mp hsmall))
      rw [← hy] at herr
      linarith

/-- Without the bound it may: a third above `2 ^ 51` goes to the tie, and then up. -/
example : (Binary64.ofRat? (6755399441055745 / 3)).map Finite64.halfUp = some (2 ^ 51 + 1) ∧
    (2 * 6755399441055745 + 3) / (2 * 3) = (2 ^ 51 : Int) := by
  decide +kernel

end Finite64

end DelayedPayout.Number
