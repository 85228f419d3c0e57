import DelayedPayout.Number.Nearest
import Mathlib.Data.Int.Log
import Mathlib.Data.Rat.Floor
import Mathlib.Tactic.FieldSimp
import Mathlib.Tactic.GCongr
import Mathlib.Tactic.Linarith
import Mathlib.Tactic.Positivity

/-!
Rounding to a format, for every base and every count of digits. Main statements, for a non-negative `x`:

* `Precision.value_round`: the value of `p.round x` is a whole multiple of the last place around `x`;
* `Precision.abs_value_round_sub_le`: it is no farther from `x` than half that place;
* `Precision.value_round_of_multiple`: it is `x` if `x` is such a multiple itself;
* `Precision.coefficient_round_lt`, `Precision.le_coefficient_round`: it has the digits of the format.
-/

namespace DelayedPayout.Number

/-! ## Powers and digits -/

theorem power_eq_zpow (base : Nat) (k : Int) : power base k = (base : Rat) ^ k := by
  cases k with
  | ofNat n =>
    rw [power, Int.ofNat_eq_natCast, zpow_natCast]
    exact Nat.cast_pow base n
  | negSucc n =>
    rw [power, Rat.mkRat_eq_div, zpow_negSucc, Int.cast_one, one_div]
    exact congrArg _ (Nat.cast_pow base (n + 1))

theorem power_pos {base : Nat} (hb : 1 < base) (k : Int) : 0 < power base k := by
  rw [power_eq_zpow]
  have : (0 : Rat) < base := by exact_mod_cast (by omega : 0 < base)
  exact zpow_pos this k

theorem power_add {base : Nat} (hb : 1 < base) (j k : Int) :
    power base (j + k) = power base j * power base k := by
  have : (base : Rat) ≠ 0 := by exact_mod_cast (by omega : base ≠ 0)
  rw [power_eq_zpow, power_eq_zpow, power_eq_zpow, zpow_add₀ this]

theorem power_mul_neg {base : Nat} (hb : 1 < base) (k : Int) :
    power base k * power base (-k) = 1 := by
  rw [← power_add hb, Int.add_right_neg, power_eq_zpow, zpow_zero]

theorem power_natCast (base n : Nat) : power base (n : Int) = ((base ^ n : Nat) : Rat) := rfl

theorem power_le_power {base : Nat} (hb : 1 < base) {j k : Int} (h : j ≤ k) :
    power base j ≤ power base k := by
  have : (1 : Rat) ≤ base := by exact_mod_cast hb.le
  rw [power_eq_zpow, power_eq_zpow]
  exact zpow_le_zpow_right₀ this h

theorem digitCountWithin_eq {base : Nat} (hb : 1 < base) {bound n : Nat} (h : n < 2 ^ bound) :
    digitCountWithin base bound n = if n = 0 then 0 else Nat.log base n + 1 := by
  induction bound generalizing n with
  | zero =>
    have : n = 0 := by simpa using h
    simp [digitCountWithin, this]
  | succ bound ih =>
    rw [digitCountWithin]
    by_cases hn : n = 0
    · simp [hn]
    · have hq : n / base < 2 ^ bound := by
        apply Nat.div_lt_of_lt_mul
        calc n < 2 * 2 ^ bound := by rw [← Nat.pow_succ']; exact h
          _ ≤ base * 2 ^ bound := Nat.mul_le_mul_right _ hb
      rw [if_neg hn, if_neg hn, ih hq]
      by_cases hlt : n < base
      · rw [if_pos (Nat.div_eq_of_lt hlt), Nat.log_of_lt hlt]
      · have hle : base ≤ n := Nat.le_of_not_lt hlt
        rw [if_neg (Nat.div_pos hle (by omega)).ne', Nat.log_of_one_lt_of_le hb hle]

theorem digitCount_eq {base n : Nat} (hb : 1 < base) (hn : n ≠ 0) :
    digitCount base n = Nat.log base n + 1 := by
  rw [digitCount, digitCountWithin_eq hb Nat.lt_log2_self, if_neg hn]

theorem digitCount_bounds {base n : Nat} (hb : 1 < base) (hn : n ≠ 0) :
    power base (digitCount base n - 1) ≤ n ∧ (n : Rat) < power base (digitCount base n) := by
  rw [digitCount_eq hb hn, power_natCast]
  constructor
  · rw [Nat.cast_add, Nat.cast_one, Int.add_sub_cancel, power_natCast]
    exact Nat.cast_le.mpr (Nat.pow_log_le_self base hn)
  · exact Nat.cast_lt.mpr (Nat.lt_pow_succ_log_self hb n)

/-- The digit counts of the two parts of a fraction fix its size up to one power on either side. -/
theorem digitCount_sub_bounds {base : Nat} (hb : 1 < base) {x : Rat} (hx : 0 < x) {g : Int}
    (hg : (digitCount base x.num.natAbs : Int) - digitCount base x.den = g) :
    power base (g - 1) ≤ x ∧ x < power base (g + 1) := by
  have hnum : x.num.natAbs ≠ 0 := by
    have := Rat.num_pos.mpr hx
    omega
  have hval : (x.num.natAbs : Rat) = x * x.den := by
    rw [Rat.mul_den_eq_num, Nat.cast_natAbs, abs_of_pos (Rat.num_pos.mpr hx)]
  obtain ⟨hnum1, hnum2⟩ := digitCount_bounds hb hnum
  obtain ⟨hden1, hden2⟩ := digitCount_bounds hb x.den_ne_zero
  generalize (digitCount base x.num.natAbs : Int) = a at hg hnum1 hnum2
  generalize (digitCount base x.den : Int) = b at hg hden1 hden2
  rw [hval] at hnum1 hnum2
  have hlow : g - 1 + b = a - 1 := by omega
  have hhigh : g + 1 + (b - 1) = a := by omega
  constructor
  · apply le_of_mul_le_mul_right _ (power_pos hb b)
    calc power base (g - 1) * power base b = power base (a - 1) := by rw [← power_add hb, hlow]
      _ ≤ x * x.den := hnum1
      _ ≤ x * power base b := by gcongr
  · apply lt_of_mul_lt_mul_right _ (power_pos hb (b - 1)).le
    calc x * power base (b - 1) ≤ x * x.den := by gcongr
      _ < power base a := hnum2
      _ = power base (g + 1) * power base (b - 1) := by rw [← power_add hb, hhigh]

/-- The leading power of a positive number is one more than its integer logarithm. -/
theorem leadingPower_eq_log {base : Nat} (hb : 1 < base) {x : Rat} (hx : 0 < x) :
    leadingPower base x = Int.log base x + 1 := by
  unfold leadingPower
  generalize hg : (digitCount base x.num.natAbs : Int) - (digitCount base x.den : Int) = g
  obtain ⟨hlow, hhigh⟩ := digitCount_sub_bounds hb hx hg
  rw [power_eq_zpow] at hlow hhigh
  have hlog1 : g - 1 ≤ Int.log base x := (Int.zpow_le_iff_le_log hb hx).mp hlow
  have hlog2 : Int.log base x < g + 1 := (Int.lt_zpow_iff_log_lt hb hx).mp hhigh
  simp only [power_eq_zpow]
  by_cases h : x < (base : Rat) ^ g
  · have := (Int.lt_zpow_iff_log_lt hb hx).mp h
    rw [if_pos h]
    omega
  · have := (Int.zpow_le_iff_le_log hb hx).mp (not_lt.mp h)
    rw [if_neg h]
    omega

theorem leadingPower_le {base : Nat} (hb : 1 < base) {x : Rat} (hx : 0 < x) {k : Int}
    (h : x < power base k) : leadingPower base x ≤ k := by
  rw [power_eq_zpow] at h
  rw [leadingPower_eq_log hb hx]
  exact (Int.lt_zpow_iff_log_lt hb hx).mp h

theorem leadingPower_eq {base : Nat} (hb : 1 < base) {x : Rat} {k : Int}
    (h : power base (k - 1) ≤ x) (h' : x < power base k) : leadingPower base x = k := by
  have hx : 0 < x := (power_pos hb (k - 1)).trans_le h
  have hle := leadingPower_le hb hx h'
  rw [power_eq_zpow] at h
  have hlog := (Int.zpow_le_iff_le_log hb hx).mp h
  rw [← Int.add_le_add_iff_right 1, ← leadingPower_eq_log hb hx] at hlog
  omega

theorem lt_power_leadingPower {base : Nat} (hb : 1 < base) {x : Rat} (hx : 0 < x) :
    x < power base (leadingPower base x) := by
  rw [leadingPower_eq_log hb hx, power_eq_zpow]
  exact Int.lt_zpow_succ_log_self hb x

theorem power_pred_leadingPower_le {base : Nat} (hb : 1 < base) {x : Rat} (hx : 0 < x) :
    power base (leadingPower base x - 1) ≤ x := by
  rw [leadingPower_eq_log hb hx, power_eq_zpow, Int.add_sub_cancel]
  exact Int.zpow_log_le_self hb hx

/-! ## The nearest integer -/

theorem abs_nearest_sub_le (x : Rat) : |(nearest x : Rat) - x| ≤ 1 / 2 := by
  have hle := Rat.floor_le x
  have hlt := Rat.lt_floor_add_one x
  push_cast at hlt
  rw [abs_le]
  unfold nearest
  simp only
  split
  · constructor <;> linarith
  · split
    · push_cast
      constructor <;> linarith
    · rcases Int.emod_two_eq_zero_or_one x.floor with h | h <;> rw [h] <;> push_cast <;>
        constructor <;> linarith

/-- The distance to the nearest multiple is that of the quotient to the nearest integer, scaled. -/
theorem abs_nearest_mul_sub {x u : Rat} (hu : 0 < u) :
    |nearest (x / u) * u - x| = |(nearest (x / u) : Rat) - x / u| * u := by
  have hscale : nearest (x / u) * u - x = (nearest (x / u) - x / u) * u := by
    field_simp
  rw [hscale, abs_mul, abs_of_pos hu]

/-- Nothing but the nearest integer is within less than a half. -/
theorem nearest_eq_of_abs_lt {n : Int} {x : Rat} (h : |x - n| < 1 / 2) : nearest x = n := by
  obtain ⟨hx, hx'⟩ := abs_le.mp (abs_nearest_sub_le x)
  obtain ⟨hn, hn'⟩ := abs_lt.mp h
  have hle : (nearest x : Rat) < ((n + 1 : Int) : Rat) := by
    push_cast
    linarith
  have hge : (n : Rat) < ((nearest x + 1 : Int) : Rat) := by
    push_cast
    linarith
  have hle' : nearest x < n + 1 := Int.cast_lt.mp hle
  have hge' : n < nearest x + 1 := Int.cast_lt.mp hge
  omega

theorem nearest_intCast (n : Int) : nearest (n : Rat) = n := by
  apply nearest_eq_of_abs_lt
  norm_num

/-- Of two nearest integers the even one is taken. -/
theorem nearest_even_of_tie {x : Rat} (h : |x - nearest x| = 1 / 2) : nearest x % 2 = 0 := by
  have hle := Rat.floor_le x
  have hlt := Rat.lt_floor_add_one x
  push_cast at hlt
  unfold nearest at h ⊢
  simp only at h ⊢
  by_cases hdown : x - x.floor < 1 / 2
  · rw [if_pos hdown, abs_of_nonneg (by linarith)] at h
    linarith
  rw [if_neg hdown] at h ⊢
  by_cases hup : 1 / 2 < x - x.floor
  · rw [if_pos hup] at h
    push_cast at h
    rw [abs_of_nonpos (by linarith)] at h
    linarith
  · rw [if_neg hup]
    omega

theorem le_nearest {n : Int} {x : Rat} (h : (n : Rat) ≤ x) : n ≤ nearest x := by
  have hx := (abs_le.mp (abs_nearest_sub_le x)).1
  have : (n : Rat) < ((nearest x + 1 : Int) : Rat) := by
    push_cast
    linarith
  have : n < nearest x + 1 := by exact_mod_cast this
  omega

theorem nearest_le {n : Int} {x : Rat} (h : x ≤ n) : nearest x ≤ n := by
  have hx := (abs_le.mp (abs_nearest_sub_le x)).2
  have : ((nearest x : Int) : Rat) < ((n + 1 : Int) : Rat) := by
    push_cast
    linarith
  have : nearest x < n + 1 := by exact_mod_cast this
  omega

theorem floor_eq_of_between {n : Int} {x : Rat} (h : (n : Rat) ≤ x) (h' : x < n + 1) :
    x.floor = n := by
  have hle : n ≤ x.floor := Rat.le_floor_iff.mpr h
  have hlt : x.floor < n + 1 := by
    rw [Rat.floor_lt_iff]
    push_cast
    exact h'
  omega

/-- A tie goes to the even neighbour. -/
theorem nearest_add_half (n : Int) : nearest (n + 1 / 2) = n + n % 2 := by
  have hfloor : ((n : Rat) + 1 / 2).floor = n := by
    apply floor_eq_of_between <;> linarith
  unfold nearest
  simp only [hfloor, add_sub_cancel_left, lt_self_iff_false, if_false]

/-- Both sides of zero round alike. -/
theorem nearest_neg (x : Rat) : nearest (-x) = -nearest x := by
  have hle := Rat.floor_le x
  have hlt := Rat.lt_floor_add_one x
  push_cast at hlt
  rcases eq_or_lt_of_le hle with heq | hne
  · rw [← heq, ← Int.cast_neg, nearest_intCast, nearest_intCast]
  · have hfloor : (-x).floor = -x.floor - 1 := by
      apply floor_eq_of_between <;> push_cast <;> linarith
    unfold nearest
    simp only [hfloor]
    push_cast
    by_cases h : x - x.floor < 1 / 2
    · rw [if_pos h, if_neg (by linarith), if_pos (by linarith)]
      omega
    · by_cases h' : 1 / 2 < x - x.floor
      · rw [if_neg h, if_pos h', if_pos (by linarith)]
        omega
      · rw [if_neg h, if_neg h', if_neg (by linarith), if_neg (by linarith)]
        omega

/-! ## The value of a format -/

namespace Precision

variable {p : Precision} {x : Rat}

theorem value_settle (hb : 1 < p.base) (hd : 0 < p.digits) (s : Scaled) :
    (p.settle s).value p.base = s.value p.base := by
  by_cases h : s.coefficient = Nat.pow p.base p.digits
  · obtain ⟨d, hd⟩ : ∃ d, p.digits = d + 1 := ⟨p.digits - 1, by omega⟩
    rw [settle, if_pos h]
    simp only [Scaled.value, h, hd, Nat.add_sub_cancel, power_add hb]
    have h1 : power p.base 1 = (p.base : Rat) := by rw [power_eq_zpow, zpow_one]
    have h2 : Nat.pow p.base (d + 1) = Nat.pow p.base d * p.base :=
      Nat.pow_succ (n := p.base) (m := d)
    rw [h1, h2]
    push_cast
    ring
  · rw [settle, if_neg h]

theorem round_zero (p : Precision) : p.round 0 = ⟨0, p.leastExponent⟩ := if_pos rfl

theorem round_of_ne_zero (p : Precision) (hne : x ≠ 0) :
    p.round x =
      p.settle ⟨(nearest (x / power p.base (p.lastExponent x))).toNat, p.lastExponent x⟩ :=
  if_neg hne

theorem lastExponent_le (hb : 1 < p.base) (hx : 0 < x) {k : Int} (h : x < power p.base k) :
    p.lastExponent x ≤ max p.leastExponent (k - p.digits) := by
  have := leadingPower_le hb hx h
  unfold lastExponent
  omega

theorem lastExponent_eq (hb : 1 < p.base) {k : Int} (h : power p.base (k - 1) ≤ x)
    (h' : x < power p.base k) : p.lastExponent x = max p.leastExponent (k - p.digits) := by
  rw [lastExponent, leadingPower_eq hb h h']

theorem value_zero_scaled (base : Nat) (e : Int) : Scaled.value base ⟨0, e⟩ = 0 := by
  rw [Scaled.value, Nat.cast_zero, zero_mul]

/-- The rounded value is a whole multiple of the last place around `x`. -/
theorem value_round (hb : 1 < p.base) (hd : 0 < p.digits) (hx : 0 ≤ x) :
    (p.round x).value p.base =
      nearest (x / power p.base (p.lastExponent x)) * power p.base (p.lastExponent x) := by
  by_cases h : x = 0
  · have h0 : nearest 0 = 0 := nearest_intCast 0
    rw [h, round_zero, value_zero_scaled, zero_div, h0, Int.cast_zero, zero_mul]
  · have hpos := power_pos hb (p.lastExponent x)
    have hn : 0 ≤ nearest (x / power p.base (p.lastExponent x)) := by
      apply le_nearest
      rw [Int.cast_zero]
      exact div_nonneg hx hpos.le
    rw [round_of_ne_zero p h, value_settle hb hd, Scaled.value]
    simp only
    rw [← Int.cast_natCast, Int.toNat_of_nonneg hn]

/-- Rounding is off by at most half the last place. -/
theorem abs_value_round_sub_le (hb : 1 < p.base) (hd : 0 < p.digits) (hx : 0 ≤ x) :
    |(p.round x).value p.base - x| ≤ power p.base (p.lastExponent x) / 2 := by
  rw [value_round hb hd hx]
  have hpos := power_pos hb (p.lastExponent x)
  generalize power p.base (p.lastExponent x) = u at hpos ⊢
  rw [abs_nearest_mul_sub hpos]
  calc |(nearest (x / u) : Rat) - x / u| * u ≤ 1 / 2 * u := by
        gcongr
        exact abs_nearest_sub_le _
    _ = u / 2 := by ring

/-- A multiple of the last place stays as it is. -/
theorem value_round_of_multiple (hb : 1 < p.base) (hd : 0 < p.digits) (hx : 0 ≤ x) {n : Nat}
    {e : Int} (he : p.lastExponent x ≤ e) (h : x = n * power p.base e) :
    (p.round x).value p.base = x := by
  rw [value_round hb hd hx]
  generalize p.lastExponent x = last at he ⊢
  obtain ⟨k, hk⟩ := Int.eq_ofNat_of_zero_le (Int.sub_nonneg.mpr he)
  have hpos := power_pos hb last
  have he' : power p.base e = (p.base ^ k : Nat) * power p.base last := by
    rw [← power_natCast, ← power_add hb, ← hk, Int.sub_add_cancel]
  have hdiv : x / power p.base last = ((n * p.base ^ k : Nat) : Int) := by
    rw [div_eq_iff hpos.ne', h, he']
    push_cast
    ring
  rw [hdiv, nearest_intCast, ← hdiv, div_mul_cancel₀ _ hpos.ne']

/-! ## The digits of a format -/

theorem power_lastExponent_le (hb : 1 < p.base) (hd : 0 < p.digits) (hx : 0 < x)
    (he : p.lastExponent x ≠ p.leastExponent) :
    power p.base (p.lastExponent x) * (p.base ^ (p.digits - 1) : Nat) ≤ x := by
  have hl : p.lastExponent x + ((p.digits - 1 : Nat) : Int) = leadingPower p.base x - 1 := by
    unfold lastExponent at he ⊢
    omega
  rw [← power_natCast, ← power_add hb, hl]
  exact power_pred_leadingPower_le hb hx

theorem lt_power_lastExponent (hb : 1 < p.base) (hx : 0 < x) :
    x < power p.base (p.lastExponent x) * (p.base ^ p.digits : Nat) := by
  have hl : leadingPower p.base x ≤ p.lastExponent x + (p.digits : Int) := by
    unfold lastExponent
    omega
  rw [← power_natCast, ← power_add hb]
  exact (lt_power_leadingPower hb hx).trans_le (power_le_power hb hl)

theorem nearest_lastExponent_le (hb : 1 < p.base) (hx : 0 < x) :
    (nearest (x / power p.base (p.lastExponent x))).toNat ≤ p.base ^ p.digits := by
  have hpos := power_pos hb (p.lastExponent x)
  have : nearest (x / power p.base (p.lastExponent x)) ≤ ((p.base ^ p.digits : Nat) : Int) := by
    apply nearest_le
    rw [Int.cast_natCast, div_le_iff₀ hpos, mul_comm]
    exact (lt_power_lastExponent hb hx).le
  omega

theorem le_nearest_lastExponent (hb : 1 < p.base) (hd : 0 < p.digits) (hx : 0 < x)
    (he : p.lastExponent x ≠ p.leastExponent) :
    p.base ^ (p.digits - 1) ≤ (nearest (x / power p.base (p.lastExponent x))).toNat := by
  have hpos := power_pos hb (p.lastExponent x)
  have : ((p.base ^ (p.digits - 1) : Nat) : Int) ≤
      nearest (x / power p.base (p.lastExponent x)) := by
    apply le_nearest
    rw [Int.cast_natCast, le_div_iff₀ hpos, mul_comm]
    exact power_lastExponent_le hb hd hx he
  omega

/-- A rounded coefficient has no more digits than the format. -/
theorem coefficient_round_lt (hb : 1 < p.base) (hd : 0 < p.digits) (hx : 0 ≤ x) :
    (p.round x).coefficient < p.base ^ p.digits := by
  by_cases hzero : x = 0
  · rw [hzero, round_zero]
    exact Nat.pow_pos (by omega)
  · have hle := nearest_lastExponent_le hb (lt_of_le_of_ne hx (Ne.symm hzero))
    rw [round_of_ne_zero p hzero, settle]
    by_cases hcarry : (nearest (x / power p.base (p.lastExponent x))).toNat =
        Nat.pow p.base p.digits
    · rw [if_pos hcarry]
      exact Nat.pow_lt_pow_right hb (by omega)
    · rw [if_neg hcarry]
      exact lt_of_le_of_ne hle hcarry

/-- A rounded coefficient has all digits of the format, unless its exponent is the least. -/
theorem le_coefficient_round (hb : 1 < p.base) (hd : 0 < p.digits) (hx : 0 ≤ x) :
    p.base ^ (p.digits - 1) ≤ (p.round x).coefficient ∨
      (p.round x).exponent = p.leastExponent := by
  by_cases hzero : x = 0
  · rw [hzero, round_zero]
    exact Or.inr rfl
  · have hpos : 0 < x := lt_of_le_of_ne hx (Ne.symm hzero)
    rw [round_of_ne_zero p hzero, settle]
    split
    · exact Or.inl (le_refl _)
    · by_cases he : p.lastExponent x = p.leastExponent
      · exact Or.inr he
      · exact Or.inl (le_nearest_lastExponent hb hd hpos he)

theorem leastExponent_le_exponent_round (p : Precision) (x : Rat) :
    p.leastExponent ≤ (p.round x).exponent := by
  by_cases hzero : x = 0
  · rw [hzero, round_zero]
  · have : p.leastExponent ≤ p.lastExponent x := le_max_left _ _
    rw [round_of_ne_zero p hzero, settle]
    split <;> simp only <;> omega

theorem exponent_round_le (hb : 1 < p.base) (hx : 0 ≤ x) {k : Int} (h : x < power p.base k) :
    (p.round x).exponent ≤ max p.leastExponent (k - p.digits) + 1 := by
  by_cases hzero : x = 0
  · rw [hzero, round_zero]
    simp only
    omega
  · have := lastExponent_le hb (lt_of_le_of_ne hx (Ne.symm hzero)) h
    rw [round_of_ne_zero p hzero, settle]
    split <;> simp only <;> omega

end Precision

end DelayedPayout.Number
