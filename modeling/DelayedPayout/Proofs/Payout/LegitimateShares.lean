import DelayedPayout.Proofs.Number.HalfUp
import DelayedPayout.Proofs.Payout.Conservation

/-!
Legitimate shares are never rejected. Rounding adds less than one satoshi to an output
(`Candidate.amount_of_isShare`), so outputs of shares that sum up to one at most exceed the amount by no
more than their number (`total_keptOutputs_le`).
-/

namespace DelayedPayout

open Number

variable {candidates : List Candidate} {spendable minOutput threshold : Int}
  {fallback : Option String}

/-! ## Shares -/

/-- The exact value of a number, and zero for all else. -/
def Scalar.exact : Scalar → Rat
  | .int n => n
  | .real (.finite x) => x.value
  | _ => 0

/-- A number from zero to one. -/
def Scalar.IsShare : Scalar → Prop
  | .int n => 0 ≤ n ∧ n ≤ 1
  | .real (.finite x) => 0 ≤ x.value ∧ x.value ≤ 1
  | _ => False

instance (s : Scalar) : Decidable s.IsShare :=
  match s with
  | .int n => inferInstanceAs (Decidable (0 ≤ n ∧ n ≤ 1))
  | .real (.finite x) => inferInstanceAs (Decidable (0 ≤ x.value ∧ x.value ≤ 1))
  | .real .nan | .real (.infinite _) | .text _ | .flag _ | .null => .isFalse id

/-- The share of a candidate that is paid, and zero for one that is not. -/
def Candidate.paidShare (c : Candidate) : Rat := if c.payee?.isSome then c.share.exact else 0

def paidShares : List Candidate → Rat
  | [] => 0
  | c :: rest => c.paidShare + paidShares rest

theorem Scalar.exact_of_isShare {s : Scalar} (h : s.IsShare) : 0 ≤ s.exact ∧ s.exact ≤ 1 := by
  cases s with
  | int n =>
    have h1 : (n : Rat) ≤ 1 := by exact_mod_cast h.2
    exact ⟨Int.cast_nonneg h.1, h1⟩
  | real x =>
    cases x with
    | finite x => exact h
    | nan => exact h.elim
    | infinite _ => exact h.elim
  | _ => exact h.elim

theorem Scalar.toShare_of_isShare {s : Scalar} (h : s.IsShare) :
    ∃ x, s.toShare = .ok x ∧ x.value = s.exact := by
  cases s with
  | int n =>
    have hle : n ≤ 2 ^ 53 := h.2.trans (by norm_num)
    obtain ⟨x, hx, hval⟩ := Binary64.ofInt?_eq_some h.1 hle
    have hunit : (decide (0 ≤ n) && decide (n ≤ 1)) = true := by simp [h.1, h.2]
    refine ⟨x, ?_, hval⟩
    simp only [toShare, hx, hunit, ↓reduceIte]
  | real x =>
    cases x with
    | finite x =>
      have hunit : x.inUnit = true := by simp [Finite64.inUnit, h.1, h.2]
      exact ⟨x, by rw [toShare, if_pos hunit], rfl⟩
    | nan => exact h.elim
    | infinite _ => exact h.elim
  | _ => exact h.elim

/-! ## Amounts -/

/-- A candidate with a legitimate share has an amount, off by less than one from the exact one. -/
theorem Candidate.amount_of_isShare {c : Candidate} (h : c.share.IsShare) (hs : 0 ≤ spendable)
    (hle : spendable ≤ 2 ^ 53) :
    ∃ amount, c.amount spendable = .ok amount ∧
      |(amount : Rat) - c.share.exact * spendable| ≤ 3 / 4 := by
  obtain ⟨x, hx, hxval⟩ := Scalar.toShare_of_isShare h
  obtain ⟨w, hw, hwval⟩ := Binary64.ofInt?_eq_some hs hle
  obtain ⟨hx0, hx1⟩ := Scalar.exact_of_isShare h
  have hs' : (0 : Rat) ≤ spendable := by exact_mod_cast hs
  have hle' : (spendable : Rat) ≤ 2 ^ 53 := by exact_mod_cast hle
  have hprod : 0 ≤ c.share.exact * spendable := mul_nonneg hx0 hs'
  have hprod' : c.share.exact * spendable ≤ 2 ^ 53 :=
    (mul_le_of_le_one_left hs' hx1).trans hle'
  have hfinite : x.value * w.value < power 2 1023 := by
    rw [hxval, hwval]
    calc c.share.exact * spendable ≤ 2 ^ 53 := hprod'
      _ < power 2 54 := by rw [power_eq_zpow]; norm_num
      _ ≤ power 2 1023 := power_le_power binary64_base (by omega)
  obtain ⟨z, hz, hzval⟩ :=
    Finite64.value_mul (x := x) (y := w) (hxval ▸ hx0) (hwval ▸ hs') hfinite
  rw [hxval, hwval] at hzval
  refine ⟨z.halfUp, ?_, Finite64.abs_halfUp_sub_le hprod hprod' hzval⟩
  simp only [Candidate.amount, hx, bind, Except.bind, hw, hz, wholeNumber]

theorem Candidate.entitlement_of_isShare {c : Candidate} (minOutput : Int)
    (h : c.share.IsShare) (hs : 0 ≤ spendable) (hle : spendable ≤ 2 ^ 53) :
    ∃ e, c.entitlement spendable minOutput = .ok e := by
  cases hp : c.payee? with
  | none =>
    obtain ⟨x, hx, _⟩ := Scalar.toShare_of_isShare h
    rw [Candidate.entitlement_of_no_payee hp, hx]
    exact ⟨_, rfl⟩
  | some address =>
    obtain ⟨amount, ha, _⟩ := Candidate.amount_of_isShare h hs hle
    rw [Candidate.entitlement_of_payee hp, ha]
    exact ⟨_, rfl⟩

/-! ## Sums -/

/-- Each output that is kept adds its exact amount and less than one satoshi, and no output takes
anything off. -/
theorem total_filter_due_le (minOutput : Int) (h : ∀ c ∈ candidates, c.share.IsShare)
    (hs : 0 ≤ spendable) (hle : spendable ≤ 2 ^ 53) :
    (Receiver.total ((candidates.filterMap (Candidate.due spendable)).filter
        (minOutput ≤ ·.amount)) : Rat) ≤
      paidShares candidates * spendable +
        ((candidates.filterMap (Candidate.due spendable)).filter (minOutput ≤ ·.amount)).length := by
  induction candidates with
  | nil => simp [paidShares]
  | cons c rest ih =>
    have hrest := ih fun c' hc' => h c' (List.mem_cons_of_mem c hc')
    have hc := h c List.mem_cons_self
    rw [paidShares, add_mul, List.filterMap_cons]
    cases hp : c.payee? with
    | none =>
      have hshare : c.paidShare = 0 := by simp [Candidate.paidShare, hp]
      rw [Candidate.due_of_no_payee spendable hp, hshare, zero_mul, zero_add]
      exact hrest
    | some address =>
      obtain ⟨amount, ha, herr⟩ := Candidate.amount_of_isShare hc hs hle
      have hshare : c.paidShare = c.share.exact := by simp [Candidate.paidShare, hp]
      have hnonneg : 0 ≤ c.share.exact * spendable :=
        mul_nonneg (Scalar.exact_of_isShare hc).1 (by exact_mod_cast hs)
      rw [Candidate.due_of_payee hp ha, hshare]
      by_cases hm : minOutput ≤ amount
      · rw [List.filter_cons_of_pos (by simpa using hm), Receiver.total_cons, List.length_cons]
        have := (abs_le.mp herr).2
        push_cast
        linarith
      · rw [List.filter_cons_of_neg (by simpa using hm)]
        linarith

/-- Rounding explains all of the excess. -/
theorem total_keptOutputs_le (minOutput : Int) (h : ∀ c ∈ candidates, c.share.IsShare)
    (hsum : paidShares candidates ≤ 1) (hs : 0 ≤ spendable) (hle : spendable ≤ 2 ^ 53) :
    Receiver.total (keptOutputs candidates spendable minOutput) - spendable ≤
      (keptOutputs candidates spendable minOutput).length := by
  have hs' : (0 : Rat) ≤ spendable := by exact_mod_cast hs
  have hbound := total_filter_due_le minOutput h hs hle
  have hwhole : paidShares candidates * spendable ≤ spendable := mul_le_of_le_one_left hs' hsum
  rw [keptOutputs, Receiver.total_sort, (Receiver.sort_perm _).length_eq]
  generalize (candidates.filterMap (Candidate.due spendable)).filter (minOutput ≤ ·.amount) = kept
    at hbound ⊢
  have : ((Receiver.total kept - spendable : Int) : Rat) ≤ (kept.length : Int) := by
    push_cast
    linarith
  exact_mod_cast this

/-! ## Splits -/

theorem Draft.ofCandidates_of_isShare (threshold : Int) (h : ∀ c ∈ candidates, c.share.IsShare)
    (hsum : paidShares candidates ≤ 1) (hs : 0 ≤ spendable) (hle : spendable ≤ 2 ^ 53)
    (hm : 0 ≤ minOutput) :
    ∃ d, Draft.ofCandidates candidates spendable minOutput threshold = .ok d := by
  by_cases hne : candidates = []
  · subst hne
    exact ⟨_, Draft.ofCandidates_nil hs hm⟩
  · obtain ⟨es, hes⟩ : ∃ es, candidates.mapM (Candidate.entitlement spendable minOutput) = .ok es := by
      apply mapM_ok_of_forall
      intro c hc
      exact Candidate.entitlement_of_isShare minOutput (h c hc) hs hle
    have hexcess := total_keptOutputs_le minOutput h hsum hs hle
    rw [Draft.ofCandidates_of_mapM hs hm hne hes, Draft.ofOutputs, if_neg (by omega)]
    exact ⟨_, rfl⟩

/-- **Legitimate shares are never rejected.** Numbers from zero to one whose exact sum over the paid
candidates is one at most split every amount of 53 bits, whatever the least output amount and the
threshold, if there is a fallback address; and with or without one they never count as more than the
whole. -/
theorem split_of_legitimate_shares {address : String} (h : ∀ c ∈ candidates, c.share.IsShare)
    (hsum : paidShares candidates ≤ 1) (hs : 0 ≤ spendable) (hle : spendable ≤ 2 ^ 53)
    (hm : 0 ≤ minOutput) (ha : address ≠ "") :
    (∃ p, (split candidates spendable minOutput threshold (some address)).outcome = .ok p) ∧
      ∀ fallback excess, (split candidates spendable minOutput threshold fallback).outcome ≠
        .error (.sharesExceedWhole excess) := by
  obtain ⟨d, hd⟩ := Draft.ofCandidates_of_isShare threshold h hsum hs hle hm
  have hlarge : Writable (2 ^ 53) := by decide +kernel
  have hreport := d.reportable_of_ofCandidates (hlarge.of_natAbs_le (by omega)) hd
  simp only [split, hd]
  constructor
  · exact Draft.exists_settle_eq_ok ha hreport
  · intro fallback excess hp
    rcases Draft.settle_eq_error hp with ⟨_, hfault⟩ | ⟨_, hfault⟩ <;> cases hfault

/-- Three candidates with a third each, rounded to a binary number, and one without an address. -/
def thirds : List Candidate :=
  [⟨"first", .real (Binary64.ofBits 0x3fd5555555555555), some "x"⟩,
    ⟨"second", .real (Binary64.ofBits 0x3fd5555555555555), some "y"⟩,
    ⟨"third", .real (Binary64.ofBits 0x3fd5555555555555), some "z"⟩,
    ⟨"fourth", .int 1, none⟩]

/-- The thirds of eleven satoshis are rounded up to twelve in all. -/
theorem split_of_legitimate_thirds :
    (∀ c ∈ thirds, c.share.IsShare) ∧ paidShares thirds ≤ 1 ∧
      ∃ p, (split thirds 11 2 0 (some "fallback")).outcome = .ok p := by
  have hshare : ∀ c ∈ thirds, c.share.IsShare := by decide +kernel
  have hsum : paidShares thirds ≤ 1 := by decide +kernel
  exact ⟨hshare, hsum, (split_of_legitimate_shares hshare hsum (by decide) (by decide) (by decide)
    (by decide)).1⟩

end DelayedPayout
