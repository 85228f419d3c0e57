import DelayedPayout.Number.HalfUp
import DelayedPayout.Proofs.Number.Binary64
import DelayedPayout.Proofs.Number.Monotone

/-!
Rounding half up through a sum of 28 decimal digits. A binary number with a fraction is a multiple of a
power of two that is coarse against the last of the 28 digits, so the sum keeps its floor. Main
statement: `Finite64.halfUp_eq_floor`, for all numbers below `10 ^ 28`.
-/

namespace DelayedPayout.Number

theorem decimal28_base : 1 < decimal28.base := by decide

theorem decimal28_digits : 0 < decimal28.digits := by decide

/-- Rounding to a format is the same on both sides of zero. -/
theorem Precision.nearestValue_eq {p : Precision} (hb : 1 < p.base) (hd : 0 < p.digits) (x : Rat) :
    p.nearestValue x =
      nearest (x / power p.base (p.lastExponent |x|)) * power p.base (p.lastExponent |x|) := by
  rcases le_total 0 x with hx | hx
  · rw [p.nearestValue_of_nonneg hx, abs_of_nonneg hx, value_round hb hd hx]
  · rw [p.nearestValue_of_nonpos hx, abs_of_nonpos hx, value_round hb hd (neg_nonneg.mpr hx), neg_div,
      nearest_neg]
    push_cast
    ring

/-- Rounding to a last place that divides one keeps the floor, unless the next integer is within
half that place. -/
theorem floor_nearest_mul {s u : Rat} {n : Int} {m : Nat} (hu : 0 < u) (hm : u * m = 1)
    (hn : (n : Rat) ≤ s) (hgap : s + u / 2 < n + 1) : (nearest (s / u) * u : Rat).floor = n := by
  apply floor_eq_of_between
  · have hle : n * m ≤ nearest (s / u) := by
      apply le_nearest
      rw [le_div_iff₀ hu]
      push_cast
      calc (n : Rat) * m * u = n * (u * m) := by ring
        _ ≤ s := by rw [hm, mul_one]; exact hn
    calc (n : Rat) = (n * m : Int) * u := by
          push_cast
          rw [mul_assoc, mul_comm (m : Rat), hm, mul_one]
      _ ≤ nearest (s / u) * u := by
          have : ((n * m : Int) : Rat) ≤ nearest (s / u) := Int.cast_le.mpr hle
          gcongr
  · have hle := (abs_le.mp (abs_nearest_sub_le (s / u))).2
    calc (nearest (s / u) : Rat) * u ≤ (s / u + 1 / 2) * u := by gcongr; linarith
      _ = s + u / 2 := by field_simp
      _ < n + 1 := hgap

/-- Below `10 ^ k` the sum keeps its floor, unless the next integer is within half a digit. -/
theorem floor_nearestValue {s : Rat} {n k : Int} (hk : -1000 ≤ k) (hk' : k ≤ 28)
    (hs : |s| < power 10 k) (hn : (n : Rat) ≤ s) (hgap : s + power 10 (k - 28) / 2 < n + 1) :
    (decimal28.nearestValue s).floor = n := by
  have hpos : 0 < power 10 (k - 28) := power_pos decimal28_base _
  by_cases h0 : s = 0
  · rw [Precision.nearestValue, if_pos h0]
    apply floor_eq_of_between
    · rw [← h0]
      exact hn
    · linarith
  · have hlast := Precision.lastExponent_le decimal28_base (abs_pos.mpr h0) hs
    rw [Precision.nearestValue_eq decimal28_base decimal28_digits]
    generalize decimal28.lastExponent |s| = q at hlast ⊢
    have hq : q ≤ k - 28 := by
      simp only [decimal28] at hlast
      omega
    obtain ⟨m, hm⟩ := Int.eq_ofNat_of_zero_le (show 0 ≤ -q by omega)
    apply floor_nearest_mul (m := 10 ^ m) (power_pos decimal28_base q) _ hn
    · have : power 10 q ≤ power 10 (k - 28) := power_le_power decimal28_base hq
      show s + power 10 q / 2 < n + 1
      linarith
    · rw [← power_natCast, ← hm]
      exact power_mul_neg decimal28_base q

namespace Finite64

variable {x : Finite64}

theorem abs_value (x : Finite64) : |x.value| = x.magnitude := by
  unfold value
  split
  · rw [abs_neg, abs_of_nonneg x.magnitude_nonneg]
  · exact abs_of_nonneg x.magnitude_nonneg

theorem abs_value_lt (x : Finite64) : |x.value| < power 2 (53 + x.size.exponent) := by
  have hc : (x.size.coefficient : Rat) < power 2 53 := Nat.cast_lt.mpr x.canonical.1
  have hpos : 0 < power 2 x.size.exponent := power_pos binary64_base _
  rw [abs_value, magnitude, Scaled.value, power_add Nat.one_lt_two]
  exact mul_lt_mul_of_pos_right hc hpos

theorem abs_value_lt_of_le {k : Int} (h : x.size.exponent ≤ k) : |x.value| < power 2 (53 + k) :=
  x.abs_value_lt.trans_le (power_le_power binary64_base (by omega))

/-- A number is a multiple of its last place. -/
theorem exists_value_eq (x : Finite64) : ∃ m : Int, x.value = m * power 2 x.size.exponent := by
  unfold value magnitude Scaled.value
  split
  · exact ⟨-x.size.coefficient, by push_cast; ring⟩
  · exact ⟨x.size.coefficient, by push_cast; ring⟩

/-- One is an even multiple of every smaller power of two. -/
theorem exists_power_mul_eq_one {e : Int} (he : e < 0) : ∃ k : Nat, power 2 e * (2 * k) = 1 := by
  obtain ⟨j, hj⟩ := Int.eq_ofNat_of_zero_le (show 0 ≤ -e - 1 by omega)
  have hneg : -e = ((j + 1 : Nat) : Int) := by
    push_cast
    omega
  have hk : (2 : Rat) * (2 ^ j : Nat) = power 2 (-e) := by
    rw [hneg, power_natCast, pow_succ', Nat.cast_mul, Nat.cast_ofNat]
  exact ⟨2 ^ j, by rw [hk, power_mul_neg Nat.one_lt_two]⟩

/-- With a fraction, the value plus one half is at least one last place below the next integer. -/
theorem add_half_le (hx : x.size.exponent < 0) {n : Int} (h : x.value + 1 / 2 < n + 1) :
    x.value + 1 / 2 + power 2 x.size.exponent ≤ n + 1 := by
  obtain ⟨m, hm⟩ := x.exists_value_eq
  rw [hm] at h ⊢
  generalize x.size.exponent = e at hx h ⊢
  obtain ⟨k, hk⟩ := exists_power_mul_eq_one hx
  have hpos : 0 < power 2 e := power_pos binary64_base e
  generalize power 2 e = u at hk hpos h ⊢
  have hsum : (m : Rat) * u + 1 / 2 = ((m + k : Int) : Rat) * u := by
    push_cast
    linarith
  have hnext : (n : Rat) + 1 = (((n + 1) * (2 * k) : Int) : Rat) * u := by
    calc (n : Rat) + 1 = (n + 1) * (u * (2 * k)) := by rw [hk, mul_one]
      _ = (((n + 1) * (2 * k) : Int) : Rat) * u := by push_cast; ring
  rw [hsum, hnext] at h ⊢
  have hlt : m + k < (n + 1) * (2 * k) := Int.cast_lt.mp (lt_of_mul_lt_mul_right h hpos.le)
  have hle : ((m + k + 1 : Int) : Rat) ≤ ((n + 1) * (2 * k) : Int) := Int.cast_le.mpr hlt
  calc ((m + k : Int) : Rat) * u + u = ((m + k + 1 : Int) : Rat) * u := by push_cast; ring
    _ ≤ (((n + 1) * (2 * k) : Int) : Rat) * u := by gcongr

theorem abs_add_half_le (v : Rat) : |v + 1 / 2| ≤ |v| + 1 / 2 := by
  calc |v + 1 / 2| ≤ |v| + |(1 / 2 : Rat)| := abs_add_le v (1 / 2)
    _ = |v| + 1 / 2 := by norm_num

/-- With a fraction, the sum of 28 digits keeps its floor: the last place of the number is coarser than
that of the sum, or the number is too close to zero to come near an integer. -/
theorem halfUp_of_fraction (hx : x.size.exponent < 0) {n : Int} (hn : (n : Rat) ≤ x.value + 1 / 2)
    (hlt : x.value + 1 / 2 < n + 1) : x.halfUp = n := by
  have habs := abs_add_half_le x.value
  have hgap := add_half_le hx hlt
  unfold halfUp
  by_cases he : -26 ≤ x.size.exponent
  -- The sum has at least twelve places behind the point, half the last of which is below `2 ^ -26`.
  · have hv : |x.value| < power 2 52 := abs_value_lt_of_le (Int.le_sub_one_of_lt hx)
    have hu : power 2 (-26) ≤ power 2 x.size.exponent := power_le_power binary64_base he
    have hnext := (add_le_add_right hu (x.value + 1 / 2)).trans hgap
    apply floor_nearestValue (k := 16) (by omega) (by omega) _ hn
    · norm_num [power_eq_zpow] at hnext ⊢
      linarith
    · norm_num [power_eq_zpow] at hv ⊢
      linarith
  by_cases he' : -55 ≤ x.size.exponent
  -- The number is below `2 ^ 26`, which makes that nineteen places against `2 ^ -55`.
  · have hv : |x.value| < power 2 26 := abs_value_lt_of_le (k := -27) (by omega)
    have hu : power 2 (-55) ≤ power 2 x.size.exponent := power_le_power binary64_base he'
    have hnext := (add_le_add_right hu (x.value + 1 / 2)).trans hgap
    apply floor_nearestValue (k := 9) (by omega) (by omega) _ hn
    · norm_num [power_eq_zpow] at hnext ⊢
      linarith
    · norm_num [power_eq_zpow] at hv ⊢
      linarith
  -- The number is next to zero, and the sum next to one half.
  · have hv : |x.value| < power 2 (-3) := abs_value_lt_of_le (k := -56) (by omega)
    norm_num [power_eq_zpow] at hv
    obtain ⟨hlow, hhigh⟩ := abs_lt.mp hv
    have hn0 : 0 ≤ n := by
      have : (0 : Rat) < ((n + 1 : Int) : Rat) := by push_cast; linarith
      have : 0 < n + 1 := by exact_mod_cast this
      omega
    have hn0' : (0 : Rat) ≤ n := by exact_mod_cast hn0
    apply floor_nearestValue (k := 0) (by omega) (by omega) _ hn
    · norm_num [power_eq_zpow]
      linarith
    · norm_num [power_eq_zpow]
      linarith

theorem exponent_pos_of_large (hx : power 2 53 ≤ |x.value|) : 0 < x.size.exponent := by
  by_contra hle
  have : |x.value| < power 2 53 := abs_value_lt_of_le (not_lt.mp hle)
  linarith

/-- Without a fraction a number is an integer. -/
theorem exists_value_eq_intCast (hx : 0 ≤ x.size.exponent) : ∃ n : Int, x.value = n := by
  obtain ⟨m, hm⟩ := x.exists_value_eq
  obtain ⟨j, hj⟩ := Int.eq_ofNat_of_zero_le hx
  refine ⟨m * 2 ^ j, ?_⟩
  rw [hm, hj, power_natCast]
  push_cast
  rfl

/-- A number without a fraction that takes more than 53 bits is even. -/
theorem even_of_large (hx : power 2 53 ≤ |x.value|) {n : Int} (hn : x.value = n) : n % 2 = 0 := by
  have he := exponent_pos_of_large hx
  obtain ⟨m, hm⟩ := x.exists_value_eq
  obtain ⟨j, hj⟩ := Int.eq_ofNat_of_zero_le (show 0 ≤ x.size.exponent - 1 by omega)
  have hj' : x.size.exponent = ((j + 1 : Nat) : Int) := by push_cast; omega
  have hn' : n = 2 * (m * 2 ^ j) := by
    rw [hn, hj', power_natCast, pow_succ] at hm
    have : (n : Rat) = ((2 * (m * 2 ^ j) : Int) : Rat) := by
      rw [hm]
      push_cast
      ring
    exact_mod_cast this
  omega

/-- Without a fraction, the sum is a tie at most. From `10 ^ 27` on its last digit counts whole numbers,
but there the number is even, so that the tie goes down to it. -/
theorem halfUp_of_no_fraction (h : |x.value| < 10 ^ 28) {n : Int} (hn : x.value = n) :
    x.halfUp = n := by
  unfold halfUp
  by_cases hbig : |x.value + 1 / 2| < power 10 27
  · apply floor_nearestValue (k := 27) (by omega) (by omega) hbig
    · linarith
    · norm_num [power_eq_zpow]
      linarith
  · have habs := abs_add_half_le x.value
    have heven : n % 2 = 0 := by
      apply even_of_large _ hn
      norm_num [power_eq_zpow] at hbig ⊢
      linarith
    have hlast : decimal28.lastExponent |x.value + 1 / 2| = 0 := by
      rw [Precision.lastExponent_eq (k := 28) decimal28_base (not_lt.mp hbig)]
      · rfl
      have hn' : |n| + 1 ≤ 10 ^ 28 := by
        rw [hn] at h
        exact_mod_cast h
      have hn'' : |x.value| + 1 ≤ 10 ^ 28 := by
        rw [hn]
        exact_mod_cast hn'
      show _ < power 10 28
      norm_num [power_eq_zpow] at hn'' ⊢
      linarith
    have hone : power decimal28.base 0 = 1 := by rw [power_eq_zpow, zpow_zero]
    rw [Precision.nearestValue_eq decimal28_base decimal28_digits, hlast, hone, div_one, mul_one, hn,
      nearest_add_half, heven, add_zero, Rat.floor_intCast]

/-- Below `10 ^ 28` the whole number is the floor of the value plus one half. -/
theorem halfUp_eq_floor (h : |x.value| < 10 ^ 28) : x.halfUp = (x.value + 1 / 2).floor := by
  by_cases hx : x.size.exponent < 0
  · apply halfUp_of_fraction hx (Rat.floor_le _)
    have := Rat.lt_floor_add_one (x.value + 1 / 2)
    push_cast at this
    exact this
  · obtain ⟨n, hn⟩ := exists_value_eq_intCast (not_lt.mp hx)
    rw [halfUp_of_no_fraction h hn]
    symm
    apply floor_eq_of_between <;> linarith

/-- Rounding to a binary number first and to a whole number then is off by less than one: where binary
numbers are coarser than quarters, they are whole numbers already. -/
theorem abs_halfUp_sub_le {v : Rat} (hv : 0 ≤ v) (hle : v ≤ 2 ^ 53)
    (hx : x.value = (binary64.round v).value 2) : |(x.halfUp : Rat) - v| ≤ 3 / 4 := by
  by_cases hlt : v < power 2 52
  · have herr := abs_le.mp (Binary64.abs_value_round_sub_le hv hlt)
    rw [← hx] at herr
    have hbig : |x.value| < 10 ^ 28 := by
      norm_num [power_eq_zpow] at hlt
      rw [abs_lt]
      constructor <;> linarith
    have hfloor := Rat.floor_le (x.value + 1 / 2)
    have hnext := Rat.lt_floor_add_one (x.value + 1 / 2)
    push_cast at hnext
    rw [halfUp_eq_floor hbig, abs_le]
    constructor <;> linarith
  · obtain ⟨n, hn, herr⟩ := Binary64.exists_value_round_eq (not_lt.mp hlt) hle
    rw [← hx] at hn
    have hbig : |x.value| < 10 ^ 28 := by
      have := abs_le.mp herr
      rw [hn, abs_lt]
      constructor <;> linarith
    rw [halfUp_of_no_fraction hbig hn]
    linarith

end Finite64

end DelayedPayout.Number
