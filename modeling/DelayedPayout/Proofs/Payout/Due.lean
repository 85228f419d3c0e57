import DelayedPayout.Payout.Split
import DelayedPayout.Proofs.Receiver.Order
import DelayedPayout.Proofs.Traversal

/-!
What the candidates are due, without the traversal that finds it out: `Candidate.due` is the output of
one candidate, `keptOutputs` are the outputs that are large enough, in their order, and `dustCount` and
`skippedCount` count the others. Main statements: `filterMap_receiver`, `count_dust` and
`count_unaddressed` read the results of a traversal of the candidates off these definitions.
-/

namespace DelayedPayout

open Number

/-! ## What a candidate is due -/

/-- The amount of a candidate: the share times the whole as a binary number, rounded half up. -/
def Candidate.amount (spendable : Int) (c : Candidate) : Except Fault Int := do
  let share ← c.share.toShare
  match Binary64.ofInt? spendable with
  | none => .error .integerTooLarge
  | some whole => wholeNumber (share.mul whole)

/-- The output of a candidate that can be paid. -/
def Candidate.due (spendable : Int) (c : Candidate) : Option Receiver := do
  let address ← c.payee?
  let amount ← (c.amount spendable).toOption
  return ⟨amount, address⟩

/-- The outputs of at least `minOutput`, in their order. -/
def keptOutputs (candidates : List Candidate) (spendable minOutput : Int) : List Receiver :=
  Receiver.sort ((candidates.filterMap (Candidate.due spendable)).filter (minOutput ≤ ·.amount))

/-- How many outputs are below `minOutput`. -/
def dustCount (candidates : List Candidate) (spendable minOutput : Int) : Nat :=
  (candidates.filterMap (Candidate.due spendable)).countP (·.amount < minOutput)

/-- How many candidates cannot be paid. -/
def skippedCount (candidates : List Candidate) : Nat := candidates.countP (·.payee?.isNone)

variable {candidates : List Candidate} {spendable minOutput threshold : Int}

theorem Candidate.entitlement_of_payee {c : Candidate} {address : String}
    (h : c.payee? = some address) :
    c.entitlement spendable minOutput =
      (c.amount spendable).map fun amount =>
        if amount < minOutput then .dust else .output ⟨amount, address⟩ := by
  unfold Candidate.entitlement Candidate.amount
  cases hs : c.share.toShare with
  | error f => rfl
  | ok share =>
    simp only [h, bind, Except.bind]
    cases Binary64.ofInt? spendable with
    | none => rfl
    | some whole => cases wholeNumber (share.mul whole) <;> rfl

theorem Candidate.entitlement_of_no_payee {c : Candidate} (h : c.payee? = none) :
    c.entitlement spendable minOutput = c.share.toShare.map fun _ => .unaddressed := by
  unfold Candidate.entitlement
  cases hs : c.share.toShare with
  | error f => rfl
  | ok share => simp only [h, bind, Except.bind, pure, Except.pure, Except.map]

theorem Candidate.due_of_payee {c : Candidate} {address : String} {amount : Int}
    (h : c.payee? = some address) (ha : c.amount spendable = .ok amount) :
    c.due spendable = some ⟨amount, address⟩ := by
  simp [Candidate.due, h, ha, Except.toOption]

theorem Candidate.due_of_no_payee {c : Candidate} (spendable : Int) (h : c.payee? = none) :
    c.due spendable = none := by
  simp [Candidate.due, h]

/-- What a candidate comes to, read off what it is due. -/
theorem Candidate.entitlement_eq_ok {c : Candidate} {e : Entitlement}
    (h : c.entitlement spendable minOutput = .ok e) :
    e.receiver? = (c.due spendable).filter (minOutput ≤ ·.amount) ∧
      (e = .dust ↔ (c.due spendable).any (·.amount < minOutput)) ∧
      (e = .unaddressed ↔ c.payee?.isNone) := by
  cases hp : c.payee? with
  | none =>
    rw [Candidate.entitlement_of_no_payee hp] at h
    have hd := Candidate.due_of_no_payee spendable hp
    cases hs : c.share.toShare with
    | error f => simp [hs, Except.map] at h
    | ok share =>
      simp only [hs, Except.map, Except.ok.injEq] at h
      subst h
      simp [hd, Entitlement.receiver?]
  | some address =>
    rw [Candidate.entitlement_of_payee hp] at h
    cases ha : c.amount spendable with
    | error f => simp [ha, Except.map] at h
    | ok amount =>
      have hd := Candidate.due_of_payee hp ha
      simp only [ha, Except.map, Except.ok.injEq] at h
      subst h
      by_cases hm : amount < minOutput
      · simp [hd, hm, Entitlement.receiver?, Option.filter]
      · have hm' : minOutput ≤ amount := by omega
        simp [hd, hm, hm', Entitlement.receiver?, Option.filter]

/-! ## What a traversal of the candidates finds -/

variable {es : List Entitlement}

theorem filterMap_receiver (h : candidates.mapM (Candidate.entitlement spendable minOutput) = .ok es) :
    es.filterMap Entitlement.receiver? =
      (candidates.filterMap (Candidate.due spendable)).filter (minOutput ≤ ·.amount) := by
  have hall := mapM_eq_ok_iff.mp h
  clear h
  induction hall with
  | nil => rfl
  | @cons c e _ _ hc _ ih =>
    rw [List.filterMap_cons, List.filterMap_cons, (Candidate.entitlement_eq_ok hc).1, ih]
    cases c.due spendable with
    | none => rfl
    | some r => by_cases hm : minOutput ≤ r.amount <;> simp [Option.filter, hm]

theorem count_dust (h : candidates.mapM (Candidate.entitlement spendable minOutput) = .ok es) :
    es.count .dust = dustCount candidates spendable minOutput := by
  have hall := mapM_eq_ok_iff.mp h
  clear h
  unfold dustCount
  induction hall with
  | nil => rfl
  | @cons c e _ _ hc _ ih =>
    have hd := (Candidate.entitlement_eq_ok hc).2.1
    rw [List.count_cons, List.filterMap_cons, ih]
    cases hdue : c.due spendable with
    | none => simpa [hdue] using hd
    | some r =>
      simp only [hdue, Option.any_some, decide_eq_true_eq] at hd
      simp [List.countP_cons, hd]

theorem count_unaddressed
    (h : candidates.mapM (Candidate.entitlement spendable minOutput) = .ok es) :
    es.count .unaddressed = skippedCount candidates := by
  have hall := mapM_eq_ok_iff.mp h
  clear h
  unfold skippedCount
  induction hall with
  | nil => rfl
  | @cons c e _ _ hc _ ih =>
    have hu := (Candidate.entitlement_eq_ok hc).2.2
    rw [List.count_cons, List.countP_cons, ih]
    simp [hu]

end DelayedPayout
