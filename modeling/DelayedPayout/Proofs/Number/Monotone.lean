import DelayedPayout.Number.HalfUp
import DelayedPayout.Proofs.Number.Rounding

/-!
Rounding is monotone, for every format. Two values with the same last place are rounded like their
quotients by it; otherwise the smaller one is rounded to no more, and the greater one to no less, than the
power of the base between them.
-/

namespace DelayedPayout.Number

theorem nearest_mono {x y : Rat} (h : x ≤ y) : nearest x ≤ nearest y := by
  rcases eq_or_lt_of_le h with rfl | hlt
  · exact le_refl _
  · have hx := (abs_le.mp (abs_nearest_sub_le x)).2
    have hy := (abs_le.mp (abs_nearest_sub_le y)).1
    have : (nearest x : Rat) < ((nearest y + 1 : Int) : Rat) := by
      push_cast
      linarith
    exact Int.lt_add_one_iff.mp (Int.cast_lt.mp this)

theorem leadingPower_mono {base : Nat} (hb : 1 < base) {x y : Rat} (hx : 0 < x) (h : x ≤ y) :
    leadingPower base x ≤ leadingPower base y :=
  leadingPower_le hb hx (h.trans_lt (lt_power_leadingPower hb (hx.trans_le h)))

namespace Precision

variable {p : Precision} {x y : Rat}

theorem lastExponent_mono (hb : 1 < p.base) (hx : 0 < x) (h : x ≤ y) :
    p.lastExponent x ≤ p.lastExponent y := by
  have := leadingPower_mono hb hx h
  unfold lastExponent
  omega

theorem value_round_nonneg (hb : 1 < p.base) (x : Rat) : 0 ≤ (p.round x).value p.base :=
  mul_nonneg (Nat.cast_nonneg _) (power_pos hb _).le

/-- A value goes up at most to the power of the base above it. -/
theorem value_round_le_power (hb : 1 < p.base) (hd : 0 < p.digits) (hx : 0 < x) :
    (p.round x).value p.base ≤ power p.base (p.lastExponent x + p.digits) := by
  have hpos := power_pos hb (p.lastExponent x)
  have hle : nearest (x / power p.base (p.lastExponent x)) ≤ ((p.base ^ p.digits : Nat) : Int) := by
    have := nearest_lastExponent_le hb hx
    omega
  rw [value_round hb hd hx.le, power_add hb, power_natCast, mul_comm (power _ _)]
  have hle' : (nearest (x / power p.base (p.lastExponent x)) : Rat) ≤ (p.base ^ p.digits : Nat) := by
    exact_mod_cast hle
  gcongr

/-- A value goes down at most to the power of the base below it, unless its last place is the least. -/
theorem power_le_value_round (hb : 1 < p.base) (hd : 0 < p.digits) (hx : 0 < x)
    (he : p.lastExponent x ≠ p.leastExponent) :
    power p.base (p.lastExponent x + p.digits - 1) ≤ (p.round x).value p.base := by
  have hpos := power_pos hb (p.lastExponent x)
  have hle : ((p.base ^ (p.digits - 1) : Nat) : Int) ≤
      nearest (x / power p.base (p.lastExponent x)) := by
    have := le_nearest_lastExponent hb hd hx he
    have hone : 0 < p.base ^ (p.digits - 1) := Nat.pow_pos (by omega)
    omega
  have hsplit : p.lastExponent x + p.digits - 1 = p.lastExponent x + ((p.digits - 1 : Nat) : Int) := by
    omega
  rw [value_round hb hd hx.le, hsplit, power_add hb, power_natCast, mul_comm (power _ _)]
  have hle' : ((p.base ^ (p.digits - 1) : Nat) : Rat) ≤
      nearest (x / power p.base (p.lastExponent x)) := by
    exact_mod_cast hle
  gcongr

/-- **Rounding to a format is monotone.** -/
theorem value_round_mono (hb : 1 < p.base) (hd : 0 < p.digits) (hx : 0 ≤ x) (h : x ≤ y) :
    (p.round x).value p.base ≤ (p.round y).value p.base := by
  rcases eq_or_lt_of_le hx with rfl | hpos
  · rw [round_zero, value_zero_scaled]
    exact value_round_nonneg hb y
  have hlast := lastExponent_mono hb hpos h
  rcases eq_or_lt_of_le hlast with hsame | hlt
  · have hunit := power_pos hb (p.lastExponent y)
    rw [value_round hb hd hx, value_round hb hd (hx.trans h), hsame]
    have hle : (nearest (x / power p.base (p.lastExponent y)) : Rat) ≤
        nearest (y / power p.base (p.lastExponent y)) := by
      apply Int.cast_le.mpr
      apply nearest_mono
      gcongr
    gcongr
  · have hleast : p.lastExponent y ≠ p.leastExponent := by
      have : p.leastExponent ≤ p.lastExponent x := le_max_left _ _
      omega
    calc (p.round x).value p.base ≤ power p.base (p.lastExponent x + p.digits) :=
          value_round_le_power hb hd hpos
      _ ≤ power p.base (p.lastExponent y + p.digits - 1) := power_le_power hb (by omega)
      _ ≤ (p.round y).value p.base := power_le_value_round hb hd (hpos.trans_le h) hleast

theorem nearestValue_of_nonneg (p : Precision) (hx : 0 ≤ x) :
    p.nearestValue x = (p.round x).value p.base := by
  rw [nearestValue, if_neg (not_lt.mpr hx)]
  by_cases h : x = 0
  · rw [if_pos h, h, round_zero, value_zero_scaled]
  · rw [if_neg h]

theorem nearestValue_of_nonpos (p : Precision) (hx : x ≤ 0) :
    p.nearestValue x = -(p.round (-x)).value p.base := by
  rw [nearestValue]
  by_cases h : x = 0
  · rw [if_pos h, h, neg_zero, round_zero, value_zero_scaled, neg_zero]
  · rw [if_neg h, if_pos (lt_of_le_of_ne hx h)]

/-- Rounding to the nearest value of a format is monotone on both sides of zero. -/
theorem nearestValue_mono (hb : 1 < p.base) (hd : 0 < p.digits) (h : x ≤ y) :
    p.nearestValue x ≤ p.nearestValue y := by
  rcases le_total 0 x with hx | hx
  · rw [p.nearestValue_of_nonneg hx, p.nearestValue_of_nonneg (hx.trans h)]
    exact value_round_mono hb hd hx h
  rw [p.nearestValue_of_nonpos hx]
  rcases le_total 0 y with hy | hy
  · rw [p.nearestValue_of_nonneg hy]
    exact (neg_nonpos.mpr (value_round_nonneg hb _)).trans (value_round_nonneg hb y)
  · rw [p.nearestValue_of_nonpos hy]
    exact neg_le_neg (value_round_mono hb hd (neg_nonneg.mpr hy) (neg_le_neg h))

end Precision

end DelayedPayout.Number
