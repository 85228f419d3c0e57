import DelayedPayout.Proofs.Number.HalfEven
import DelayedPayout.Proofs.Number.Range
import DelayedPayout.Proofs.Payout.LegitimateShares

/-!
The amounts of candidates are in the order of their shares, and grow with the whole. The whole, its product
with the share and the sum of 28 digits are each rounded once, and each rounding is monotone
(`Candidate.amount_mono`). So an output is dropped as dust only if those of all smaller shares are.
Main statement: `amounts_follow_shares`.
-/

namespace DelayedPayout

open Number

/-- What is not negative is not rounded below zero. -/
theorem Number.Finite64.halfUp_nonneg {x : Finite64} (h : 0 ≤ x.value) : 0 ≤ x.halfUp := by
  have hsum : 0 ≤ x.value + 1 / 2 := by linarith
  have hvalue := Precision.value_round_nonneg decimal28_base (x.value + 1 / 2)
  rw [← decimal28.nearestValue_of_nonneg hsum] at hvalue
  exact Rat.le_floor_iff.mpr (by simpa using hvalue)

section Amounts

variable {c d : Candidate} {lower upper spendable minOutput : Int}

/-- The amount of a share: the product with the whole, rounded once and then to a whole number. -/
theorem Candidate.amount_of_share {whole : Finite64} (h : c.share.IsShare)
    (hwhole : Binary64.ofInt? spendable = some whole) (h0 : 0 ≤ whole.value) :
    ∃ product : Finite64, c.amount spendable = .ok product.halfUp ∧
      product.value = (binary64.round (c.share.exact * whole.value)).value 2 := by
  obtain ⟨share, hshare, hvalue⟩ := Scalar.toShare_of_isShare h
  obtain ⟨hshare0, hshare1⟩ := Scalar.exact_of_isShare h
  rw [← hvalue] at hshare0 hshare1 ⊢
  obtain ⟨product, hproduct, hround⟩ := Finite64.exists_mul_of_le_one hshare0 hshare1 h0
  refine ⟨product, ?_, hround⟩
  simp only [amount, hshare, bind, Except.bind, hwhole, hproduct, wholeNumber]

/-- A greater share of a greater whole comes to no smaller amount. -/
theorem Candidate.amount_mono (hc : c.share.IsShare) (hd : d.share.IsShare)
    (hle : c.share.exact ≤ d.share.exact) (h0 : 0 ≤ lower) (h : lower ≤ upper)
    (hfit : upper < overflow) :
    ∃ m n, c.amount lower = .ok m ∧ d.amount upper = .ok n ∧ 0 ≤ m ∧ m ≤ n := by
  have hlower : (0 : Rat) ≤ lower := Int.cast_nonneg h0
  obtain ⟨y, hy⟩ : ∃ y, Binary64.ofInt? upper = some y :=
    Binary64.exists_ofInt?_iff.mpr (by rwa [abs_of_nonneg (h0.trans h)])
  obtain ⟨x, hx, hxy⟩ := Binary64.exists_ofRat?_of_le hlower (Int.cast_le.mpr h) hy
  have hx0 : 0 ≤ x.value := by
    rw [(Binary64.value_of_ofRat?_eq_some hlower hx).1]
    exact Precision.value_round_nonneg binary64_base _
  obtain ⟨a, ha, hasmall⟩ := amount_of_share hc hx hx0
  obtain ⟨b, hb, hbround⟩ := amount_of_share hd hy (hx0.trans hxy)
  have hc0 := (Scalar.exact_of_isShare hc).1
  have hd0 := (Scalar.exact_of_isShare hd).1
  have hproduct : c.share.exact * x.value ≤ d.share.exact * y.value := mul_le_mul hle hxy hx0 hd0
  have hvalue : a.value ≤ b.value := by
    rw [hasmall, hbround]
    exact Precision.value_round_mono binary64_base binary64_digits (mul_nonneg hc0 hx0) hproduct
  have ha0 : 0 ≤ a.value := hasmall ▸ Precision.value_round_nonneg binary64_base _
  exact ⟨a.halfUp, b.halfUp, ha, hb, Finite64.halfUp_nonneg ha0, Finite64.halfUp_mono hvalue⟩

/-- Of 53 bits the whole is not exceeded, and the amount is next to the exact one. -/
theorem Candidate.amount_le_of_isShare {amount : Int} (h : c.share.IsShare) (h0 : 0 ≤ spendable)
    (hle : spendable ≤ 2 ^ 53) (hamount : c.amount spendable = .ok amount) :
    amount ≤ spendable ∧ |(amount : Rat) - c.share.exact * spendable| < 1 := by
  obtain ⟨n, hn, herr⟩ := amount_of_isShare h h0 hle
  cases hamount.symm.trans hn
  have hwhole : c.share.exact * spendable ≤ spendable :=
    mul_le_of_le_one_left (Int.cast_nonneg h0) (Scalar.exact_of_isShare h).2
  have hbelow : (amount : Rat) < ((spendable + 1 : Int) : Rat) := by
    have := (abs_le.mp herr).2
    push_cast
    linarith
  exact ⟨Int.lt_add_one_iff.mp (Int.cast_lt.mp hbelow), herr.trans_lt (by norm_num)⟩

/-- A candidate gets an output iff it can be paid and its amount is large enough. -/
theorem Candidate.entitlement_eq_output_iff {r : Receiver} :
    c.entitlement spendable minOutput = .ok (.output r) ↔
      c.payee? = some r.address ∧ c.amount spendable = .ok r.amount ∧ minOutput ≤ r.amount := by
  cases hpayee : c.payee? with
  | none =>
    rw [entitlement_of_no_payee hpayee]
    cases c.share.toShare <;> simp [Except.map]
  | some address =>
    rw [entitlement_of_payee hpayee]
    cases c.amount spendable with
    | error fault => simp [Except.map]
    | ok amount =>
      obtain ⟨paid, payee⟩ := r
      by_cases hdust : amount < minOutput
      · simp only [Except.map, hdust, ↓reduceIte]
        grind
      · simp only [Except.map, hdust, ↓reduceIte]
        grind

/-- An output that is too small is dropped. -/
theorem Candidate.lt_of_entitlement_eq_dust {amount : Int}
    (h : c.entitlement spendable minOutput = .ok .dust) (hamount : c.amount spendable = .ok amount) :
    amount < minOutput := by
  cases hpayee : c.payee? with
  | none =>
    rw [entitlement_of_no_payee hpayee] at h
    cases hshare : c.share.toShare <;> simp [hshare, Except.map] at h
  | some address =>
    rw [entitlement_of_payee hpayee, hamount] at h
    simp only [Except.map, Except.ok.injEq] at h
    split at h
    · assumption
    · cases h

/-- **Amounts follow the shares.** Of two shares from zero to one and two wholes within the range of binary
numbers, the greater share of the greater whole comes to no smaller amount, and none is negative. Of 53
bits the whole is not exceeded, and the amount is off by less than one. An output is kept for the smaller
share only if none is dropped for the greater one. -/
theorem amounts_follow_shares (hc : c.share.IsShare) (hd : d.share.IsShare)
    (hle : c.share.exact ≤ d.share.exact) (h0 : 0 ≤ lower) (h : lower ≤ upper)
    (hfit : upper < overflow) :
    ∃ m n, c.amount lower = .ok m ∧ d.amount upper = .ok n ∧ 0 ≤ m ∧ m ≤ n ∧
      (lower ≤ 2 ^ 53 → m ≤ lower ∧ |(m : Rat) - c.share.exact * lower| < 1) ∧
      ∀ minOutput r, c.entitlement lower minOutput = .ok (.output r) →
        r.amount = m ∧ d.entitlement upper minOutput ≠ .ok .dust ∧
          ∀ address, d.payee? = some address →
            d.entitlement upper minOutput = .ok (.output ⟨n, address⟩) := by
  obtain ⟨m, n, hm, hn, hm0, hmn⟩ := Candidate.amount_mono hc hd hle h0 h hfit
  refine ⟨m, n, hm, hn, hm0, hmn, fun hbits => Candidate.amount_le_of_isShare hc h0 hbits hm, ?_⟩
  intro minOutput r hr
  obtain ⟨_, hamount, hkept⟩ := Candidate.entitlement_eq_output_iff.mp hr
  cases hm.symm.trans hamount
  refine ⟨rfl, fun hdust => ?_, fun address haddress => ?_⟩
  · have := Candidate.lt_of_entitlement_eq_dust hdust hn
    omega
  · exact Candidate.entitlement_eq_output_iff.mpr ⟨haddress, hn, hkept.trans hmn⟩

end Amounts

/-- A third, rounded to a binary number. -/
def lesserSharer : Candidate := ⟨"lesser", .real (Binary64.ofBits 0x3fd5555555555555), some "x"⟩

/-- A half. -/
def greaterSharer : Candidate := ⟨"greater", .real (Binary64.ofBits 0x3fe0000000000000), some "y"⟩

/-- A third of eleven satoshis is rounded up; half of a whole of 61 bits is a half of that without its last
bit. -/
theorem amounts_follow_third_and_half :
    lesserSharer.share.IsShare ∧ greaterSharer.share.IsShare ∧
      lesserSharer.share.exact ≤ greaterSharer.share.exact ∧ (1152921504606846977 : Int) < overflow ∧
      lesserSharer.amount 11 = .ok 4 ∧
      greaterSharer.amount 1152921504606846977 = .ok 576460752303423488 ∧
      (4 : Int) ≤ 576460752303423488 ∧
      |((4 : Int) : Rat) - lesserSharer.share.exact * (11 : Int)| < 1 ∧
      lesserSharer.entitlement 11 2 = .ok (.output ⟨4, "x"⟩) ∧
      greaterSharer.entitlement 1152921504606846977 2 = .ok (.output ⟨576460752303423488, "y"⟩) := by
  have hlesser : lesserSharer.share.IsShare := by decide +kernel
  have hgreater : greaterSharer.share.IsShare := by decide +kernel
  have hle : lesserSharer.share.exact ≤ greaterSharer.share.exact := by decide +kernel
  have hfit : (1152921504606846977 : Int) < overflow := by decide +kernel
  have hamount : lesserSharer.amount 11 = .ok 4 := by decide +kernel
  have hamount' : greaterSharer.amount 1152921504606846977 = .ok 576460752303423488 := by
    decide +kernel
  have hkept : lesserSharer.entitlement 11 2 = .ok (.output ⟨4, "x"⟩) := by decide +kernel
  obtain ⟨m, n, hm, hn, _, hmn, hnear, hkeeps⟩ :=
    amounts_follow_shares hlesser hgreater hle (show (0 : Int) ≤ 11 by decide) (by decide) hfit
  cases hm.symm.trans hamount
  cases hn.symm.trans hamount'
  exact ⟨hlesser, hgreater, hle, hfit, hamount, hamount', hmn, (hnear (by decide)).2, hkept,
    (hkeeps 2 _ hkept).2.2 "y" rfl⟩

/-- The negative zero is a share too. -/
example : ({ name := "", share := .real (Binary64.ofBits 0x8000000000000000) } : Candidate).amount
    1152921504606846977 = .ok 0 := by decide +kernel

end DelayedPayout
