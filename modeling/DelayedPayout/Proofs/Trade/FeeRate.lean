import DelayedPayout.FeeRule
import DelayedPayout.Proofs.Number.Quotient

/-!
The fee rate of a trade. It is taken through a binary number, and is still the exact one: the fee over the
reference size, rounded half up (`FeeRule.exists_rate_of_tradeFee`).
-/

namespace DelayedPayout

open Number

namespace FeeRule

variable {fee : Int} {params : Params}

/-- A fee with a binary quotient has a rule, and the rate of it is the rounded quotient or the floor. -/
theorem ofTradeFee_of_quotient {quotient : Finite64} (h0 : 0 ≤ fee)
    (h : Binary64.ofRat? (fee / params.referenceTxSize) = some quotient) :
    ∃ rule, ofTradeFee fee params = .ok rule ∧ rule.params = params ∧
      (rule.rate : Int) = max (params.minTxFeeRate : Int) quotient.halfUp := by
  refine ⟨⟨(max (params.minTxFeeRate : Int) quotient.halfUp).toNat, params⟩, ?_, rfl, ?_⟩
  · rw [ofTradeFee, if_neg (not_lt.mpr h0), h]
  · simp only
    omega

/-- **The fee rate of a trade is exact.** Every fee below `2 ^ 52` satoshis has one under every parameter
set, which is the fee over the reference size rounded half up, or the least rate if that is more. -/
theorem exists_rate_of_tradeFee (params : Params) (h0 : 0 ≤ fee) (hlt : fee < 2 ^ 52) :
    ∃ rule, ofTradeFee fee params = .ok rule ∧ rule.params = params ∧
      (rule.rate : Int) = max (params.minTxFeeRate : Int)
        ((2 * fee + params.referenceTxSize) / (2 * params.referenceTxSize)) ∧
      (2 * fee + params.referenceTxSize) / (2 * params.referenceTxSize) =
        ((fee : Rat) / params.referenceTxSize + 1 / 2).floor := by
  have hsize := params.referenceTxSize_pos
  have hx : (0 : Rat) ≤ fee / params.referenceTxSize :=
    div_nonneg (Int.cast_nonneg h0) (Nat.cast_nonneg _)
  have hbig : (fee : Rat) / params.referenceTxSize < power 2 1023 :=
    (div_lt_power hsize h0 hlt).trans_le (power_le_power binary64_base (by omega))
  obtain ⟨quotient, hquotient, hvalue⟩ := Binary64.ofRat?_eq_some hx hbig
  obtain ⟨rule, hrule, hparams, hrate⟩ := ofTradeFee_of_quotient h0 hquotient
  rw [Finite64.halfUp_of_quotient h0 hlt hsize hvalue] at hrate
  exact ⟨rule, hrule, hparams, hrate, halfUp_ediv_eq_floor fee hsize⟩

/-- A fee of twelve and a half satoshis a byte. -/
theorem exists_rate_of_tradeFee_3475 :
    0 ≤ (3475 : Int) ∧ (3475 : Int) < 2 ^ 52 ∧
      ofTradeFee 3475 .standard = .ok ⟨13, .standard⟩ ∧ ((3475 : Rat) / 278 + 1 / 2).floor = 13 := by
  have h0 : 0 ≤ (3475 : Int) := by decide
  have hlt : (3475 : Int) < 2 ^ 52 := by decide
  obtain ⟨⟨rate, params⟩, hrule, rfl, hrate, hfloor⟩ := exists_rate_of_tradeFee .standard h0 hlt
  obtain rfl : rate = 13 := Int.ofNat.inj hrate
  exact ⟨h0, hlt, hrule, hfloor.symm⟩

end FeeRule

end DelayedPayout
