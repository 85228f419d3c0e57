import DelayedPayout.Proofs.Network.Agreement
import DelayedPayout.Proofs.Network.SelectionHeight
import DelayedPayout.Proofs.Trade.Refusal

/-!
What the answer to a request can be, said once (`Network.step_answers`). What a refusal leaves behind
follows from it: everything is as before but the counters of the party, and those only if a peer's view was
held against ours (`Network.refusal_atomic`). Only what has happened before a line that cannot be written
stays: a chain tip has moved, or candidates are in force.
-/

namespace DelayedPayout

/-- The trade whose outputs a request asks for. -/
def Request.trade? : Request → Option Trade
  | .payout trade | .receivers trade | .verify trade _ => some trade
  | _ => none

/-- Whether a request is for a change of a chain tip or of candidates. -/
def Request.writes : Request → Bool
  | .advance _ | .register _ _ => true
  | _ => false

namespace Network

open Number

variable {tips meters parties : Nat} {net net' : Network tips meters parties} {i : Fin parties}
  {request : Request} {reply : Except Fault Reply} {fault : Fault}

/-! ## What a change leaves alone -/

@[simp] theorem setTip_tipOf (net : Network tips meters parties) (i : Fin parties) :
    net.setTip i (net.tipOf i) = net := by
  simp [setTip, tipOf]

@[simp] theorem setRegister_registerOf (net : Network tips meters parties) (i : Fin parties) :
    net.setRegister i (net.registerOf i) = net := by
  simp [setRegister, registerOf]

@[simp] theorem updateMeter_id (net : Network tips meters parties) (i : Fin parties) :
    net.updateMeter i (fun m => m) = net := by
  simp [updateMeter, meterOf]

@[simp] theorem updateMeter_updateMeter (net : Network tips meters parties) (i : Fin parties)
    (f g : Meter → Meter) :
    (net.updateMeter i f).updateMeter i g = net.updateMeter i fun m => g (f m) := by
  simp [updateMeter, meterOf]

theorem get_set {α : Type} {n : Nat} (v : Vector α n) (i j : Fin n) (x : α) :
    (v.set i x i.isLt).get j = if i = j then x else v.get j := by
  have hset : (v.set i x i.isLt).get j = if (i : Nat) = j then x else v.get j :=
    Vector.getElem_set i.isLt j.isLt
  rw [hset]
  simp only [Fin.ext_iff]

theorem meter_get_updateMeter (net : Network tips meters parties) (i : Fin parties)
    (f : Meter → Meter) (m : Fin meters) :
    (net.updateMeter i f).meter.get m =
      if (net.party.get i).meter = m then f (net.meter.get m) else net.meter.get m := by
  have hset : (net.updateMeter i f).meter.get m =
      if (net.party.get i).meter = m then f (net.meterOf i) else net.meter.get m :=
    get_set net.meter (net.party.get i).meter m _
  rw [hset]
  by_cases h : (net.party.get i).meter = m
  · rw [if_pos h, if_pos h, ← h]
    rfl
  · rw [if_neg h, if_neg h]

/-! ## Answers -/

/-- A request to a party is answered, and leaves this network. -/
inductive Answers (net : Network tips meters parties) (i : Fin parties) :
    Request → Except Fault Reply → Network tips meters parties → Prop
  | advanced {height : Int} (h : 0 ≤ height) (hreport : Reportable ((net.tipOf i).reported height)) :
      Answers net i (.advance height) (.ok .done)
        ((net.setTip i ⟨height.toNat, (net.tipOf i).updates + 1⟩).updateMeter i
          (·.noteHeight height))
  | unreportedAdvance {height : Int} (h : 0 ≤ height)
      (hreport : ¬Reportable ((net.tipOf i).reported height)) :
      Answers net i (.advance height) (.error .tooManyDigits)
        (net.setTip i ⟨height.toNat, (net.tipOf i).updates + 1⟩)
  | negativeHeight {height : Int} (h : height < 0) :
      Answers net i (.advance height) (.error (.negativeChainHeight height)) net
  | selectionHeight (ours : Int) : Answers net i .selectionHeight (.ok (.height ours)) net
  | acceptable (peer : Int) (verdict : Bool) :
      Answers net i (.acceptable peer) (.ok (.verdict verdict)) net
  | accepted (peer : Int) : Answers net i (.require peer) (.ok .done) net
  | unwritableHeight (peer : Int) : Answers net i (.require peer) (.error .tooManyDigits) net
  | heightMismatch (ours peer : Int) :
      Answers net i (.require peer) (.error (.selectionHeightMismatch ours peer))
        (net.updateMeter i Meter.countFailure)
  | uncomputed {request : Request} {trade : Trade} {fault : Fault} (h : request.trade? = some trade)
      (hp : net.payout i trade = .error fault) : Answers net i request (.error fault) net
  | payout {trade : Trade} {p : Payout} (hp : net.payout i trade = .ok p) :
      Answers net i (.payout trade) (.ok (.payout p)) (net.updateMeter i (·.count p))
  | receivers {trade : Trade} {p : Payout} (hp : net.payout i trade = .ok p) :
      Answers net i (.receivers trade) (.ok (.receivers p.receivers))
        (net.updateMeter i (·.count p))
  | verified {trade : Trade} {p : Payout} (outputs : List Output) (expected : List Receiver)
      (hp : net.payout i trade = .ok p) :
      Answers net i (.verify trade outputs) (.ok (.receivers expected))
        (net.updateMeter i (·.count p))
  | malformedOutput {trade : Trade} {p : Payout} {outputs : List Output} {fault : Fault}
      (hp : net.payout i trade = .ok p)
      (hcheck : checkOutputs trade.selectionHeight p.receivers outputs = .error fault)
      (hf : fault.isMalformedOutput = true) :
      Answers net i (.verify trade outputs) (.error fault) (net.updateMeter i (·.count p))
  | receiverMismatch {trade : Trade} {p : Payout} (outputs : List Output) (actual : List Receiver)
      (hp : net.payout i trade = .ok p) :
      Answers net i (.verify trade outputs) (.error (.receiverMismatch p.receivers actual))
        ((net.updateMeter i (·.count p)).updateMeter i Meter.countFailure)
  | unreportedMismatch {trade : Trade} {p : Payout} (outputs : List Output)
      (hp : net.payout i trade = .ok p) :
      Answers net i (.verify trade outputs) (.error .tooManyDigits) (net.updateMeter i (·.count p))
  | registered {height : Int} (candidates : CandidateSet)
      (h : (net.registerOf i).sets.isSetAt height = false) (hw : Writable height) :
      Answers net i (.register height candidates) (.ok .done)
        (net.setRegister i ⟨(net.registerOf i).sets.set height candidates⟩)
  | unreportedRegistration {height : Int} (candidates : CandidateSet)
      (h : (net.registerOf i).sets.isSetAt height = false) (hw : ¬Writable height) :
      Answers net i (.register height candidates) (.error .tooManyDigits)
        (net.setRegister i ⟨(net.registerOf i).sets.set height candidates⟩)
  | heightTaken {height : Int} (candidates : CandidateSet)
      (h : (net.registerOf i).sets.isSetAt height = true) :
      Answers net i (.register height candidates) (.error (.heightTaken height)) net
  | reset : Answers net i .reset (.ok .done) (net.updateMeter i fun _ => .fresh)
  | exposition (text : String) : Answers net i .exposition (.ok (.text text)) net
  | unwritableCounter : Answers net i .exposition (.error .tooManyDigits) net

section Steps

variable {trade : Trade} {p : Payout}

theorem compute_of_error {finish : Payout → Network tips meters parties →
      Except Fault Reply × Network tips meters parties}
    (h : net.payout i trade = .error fault) : net.compute i trade finish = (.error fault, net) := by
  rw [compute, h]
  rfl

theorem compute_of_ok {finish : Payout → Network tips meters parties →
      Except Fault Reply × Network tips meters parties}
    (h : net.payout i trade = .ok p) :
    net.compute i trade finish = finish p (net.updateMeter i (·.count p)) := by
  rw [compute, h]

theorem step_of_payout_eq_error (h : request.trade? = some trade)
    (hp : net.payout i trade = .error fault) : net.step i request = (.error fault, net) := by
  cases request <;> cases h <;> rw [step] <;> exact compute_of_error hp

theorem step_advance_of_neg {height : Int} (h : height < 0) :
    net.step i (.advance height) = (.error (.negativeChainHeight height), net) := by
  rw [step, ChainTip.notify_of_neg _ h]
  simp [refuse]

theorem step_register_of_isSetAt {height : Int} (candidates : CandidateSet)
    (h : (net.registerOf i).sets.isSetAt height = true) :
    net.step i (.register height candidates) = (.error (.heightTaken height), net) := by
  rw [step, Register.announce_of_isSetAt candidates h]
  simp [refuse]

theorem step_verify_of_malformed {outputs : List Output} (hp : net.payout i trade = .ok p)
    (hcheck : checkOutputs trade.selectionHeight p.receivers outputs = .error fault)
    (hf : fault.isMalformedOutput = true) :
    net.step i (.verify trade outputs) = (.error fault, net.updateMeter i (·.count p)) := by
  rw [step, compute_of_ok hp, hcheck]
  cases fault with
  | tooFewCells cells => rfl
  | tooManyCells => rfl
  | _ => cases hf

end Steps

theorem answers_of_payout_eq_ok {trade : Trade} {p : Payout} (ht : request.trade? = some trade)
    (hp : net.payout i trade = .ok p) :
    net.Answers i request (net.step i request).1 (net.step i request).2 := by
  cases request with
  | payout _ =>
    cases ht
    rw [step, compute_of_ok hp]
    exact .payout hp
  | receivers _ =>
    cases ht
    rw [step, compute_of_ok hp]
    exact .receivers hp
  | verify _ outputs =>
    cases ht
    cases hcheck : checkOutputs trade.selectionHeight p.receivers outputs with
    | ok expected =>
      rw [step, compute_of_ok hp, hcheck]
      exact .verified outputs expected hp
    | error fault =>
      rcases checkOutputs_eq_error hcheck with hf | ⟨actual, _, _, hfault⟩
      · rw [step_verify_of_malformed hp hcheck hf]
        exact .malformedOutput hp hcheck hf
      · rw [step, compute_of_ok hp, hcheck, hfault]
        by_cases hreport : Reportable
            (trade.selectionHeight :: (p.receivers ++ actual).map Receiver.amount)
        · rw [if_pos hreport]
          exact .receiverMismatch outputs actual hp
        · rw [if_neg hreport]
          exact .unreportedMismatch outputs hp
  | _ => cases ht

theorem answers_of_no_trade (ht : request.trade? = none) :
    net.Answers i request (net.step i request).1 (net.step i request).2 := by
  obtain ⟨ours, hours, _⟩ := selectionHeight_eq_ok (net.paramsOf i) (net.ledgerOf i) (net.tipOf i)
  rw [← selectionHeight_eq] at hours
  cases request with
  | advance height =>
    by_cases h : height < 0
    · rw [step_advance_of_neg h]
      exact .negativeHeight h
    · rw [Int.not_lt] at h
      rw [step, ChainTip.notify_of_nonneg _ h]
      by_cases hreport : Reportable ((net.tipOf i).reported height)
      · rw [report_of_reportable hreport]
        exact .advanced h hreport
      · rw [report_of_not_reportable hreport]
        exact .unreportedAdvance h hreport
  | selectionHeight =>
    rw [step, hours]
    exact .selectionHeight ours
  | acceptable peer =>
    rw [step, hours]
    exact .acceptable peer _
  | require peer =>
    simp only [step, hours]
    split
    · exact .accepted peer
    · by_cases hreport : Reportable [peer, ours]
      · rw [report_of_reportable hreport]
        exact .heightMismatch ours peer
      · rw [report_of_not_reportable hreport]
        exact .unwritableHeight peer
  | register height candidates =>
    cases h : (net.registerOf i).sets.isSetAt height with
    | true =>
      rw [step_register_of_isSetAt candidates h]
      exact .heightTaken candidates h
    | false =>
      rw [step, Register.announce_of_not_isSetAt candidates h]
      by_cases hw : Writable height
      · rw [report_of_reportable (reportable_singleton.mpr hw)]
        exact .registered candidates h hw
      · rw [report_of_not_reportable (mt reportable_singleton.mp hw)]
        exact .unreportedRegistration candidates h hw
  | reset => exact .reset
  | exposition =>
    rw [step, Meter.exposition]
    by_cases hreport : Reportable ((net.meterOf i).samples.map Sample.value)
    · rw [report_of_reportable hreport]
      exact .exposition _
    · rw [report_of_not_reportable hreport]
      exact .unwritableCounter
  | payout _ | receivers _ | verify _ _ => cases ht

/-- Every request has one of these answers. -/
theorem step_answers (net : Network tips meters parties) (i : Fin parties) (request : Request) :
    net.Answers i request (net.step i request).1 (net.step i request).2 := by
  cases ht : request.trade? with
  | none => exact answers_of_no_trade ht
  | some trade =>
    cases hp : net.payout i trade with
    | error fault =>
      rw [step_of_payout_eq_error ht hp]
      exact .uncomputed ht hp
    | ok p => exact answers_of_payout_eq_ok ht hp

/-! ## Refusals -/

/-- The network after a refused request. A selection height that is not ours counts as a failure. A
verification counts the payout, if there is one, and receivers that are not ours as a failure. A chain tip
that cannot be reported has moved, and candidates that cannot be are in force. -/
def afterRefusal (net : Network tips meters parties) (i : Fin parties) (fault : Fault) :
    Request → Network tips meters parties
  | .advance height =>
    match fault with
    | .tooManyDigits => net.setTip i ⟨height.toNat, (net.tipOf i).updates + 1⟩
    | _ => net
  | .register height candidates =>
    match fault with
    | .tooManyDigits => net.setRegister i ⟨(net.registerOf i).sets.set height candidates⟩
    | _ => net
  | .require _ =>
    match fault with
    | .selectionHeightMismatch _ _ => net.updateMeter i Meter.countFailure
    | _ => net
  | .verify trade _ =>
    match net.payout i trade with
    | .error _ => net
    | .ok p =>
      match fault with
      | .receiverMismatch _ _ => (net.updateMeter i (·.count p)).updateMeter i Meter.countFailure
      | _ => net.updateMeter i (·.count p)
  | _ => net

theorem Answers.eq_afterRefusal (h : net.Answers i request (.error fault) net') :
    net' = net.afterRefusal i fault request := by
  cases h with
  | uncomputed ht hp =>
    cases request with
    | verify trade outputs =>
      cases ht
      rw [afterRefusal, hp]
    | _ => first | rfl | cases ht
  | malformedOutput hp _ hf =>
    rw [afterRefusal, hp]
    cases fault with
    | receiverMismatch expected actual => cases hf
    | _ => rfl
  | receiverMismatch outputs actual hp => rw [afterRefusal, hp]
  | unreportedMismatch outputs hp => rw [afterRefusal, hp]
  | negativeHeight | unreportedAdvance | unwritableHeight | heightMismatch | unreportedRegistration
  | heightTaken | unwritableCounter => rfl

/-- After a refusal only the counters that the party uses may differ, unless a line could not be written
about something else. -/
theorem afterRefusal_eq_updateMeter (net : Network tips meters parties) (i : Fin parties)
    (h : fault ≠ .tooManyDigits ∨ request.writes = false) :
    ∃ f, net.afterRefusal i fault request = net.updateMeter i f := by
  have hself : ∃ f, net = net.updateMeter i f := ⟨_, (net.updateMeter_id i).symm⟩
  unfold afterRefusal
  split
  · split
    · simp [Request.writes] at h
    · exact hself
  · split
    · simp [Request.writes] at h
    · exact hself
  · split
    · exact ⟨_, rfl⟩
    · exact hself
  · split
    · exact hself
    · split
      · exact ⟨_, updateMeter_updateMeter net i _ _⟩
      · exact ⟨_, rfl⟩
  · exact hself

theorem meter_get_afterRefusal (net : Network tips meters parties) (i : Fin parties) (fault : Fault)
    (request : Request) {m : Fin meters} (hm : (net.party.get i).meter ≠ m) :
    (net.afterRefusal i fault request).meter.get m = net.meter.get m := by
  by_cases h : fault ≠ .tooManyDigits ∨ request.writes = false
  · obtain ⟨f, hf⟩ := net.afterRefusal_eq_updateMeter i h
    rw [hf, meter_get_updateMeter, if_neg hm]
  · obtain ⟨hfault, hwrites⟩ := not_or.mp h
    rw [Classical.not_not] at hfault
    subst hfault
    cases request with
    | advance height | register height candidates => rfl
    | _ => exact (hwrites rfl).elim

/-! ## Lines that cannot be written -/

theorem step_advance_eq_tooManyDigits_iff {height : Int} :
    (net.step i (.advance height)).1 = .error .tooManyDigits ↔
      0 ≤ height ∧ ¬Reportable ((net.tipOf i).reported height) := by
  have hanswers := net.step_answers i (.advance height)
  generalize net.step i (.advance height) = answer at hanswers ⊢
  obtain ⟨reply, net'⟩ := answer
  cases hanswers with
  | advanced h hreport => simp [hreport]
  | unreportedAdvance h hreport => simp [h, hreport]
  | negativeHeight h => simp [Int.not_le.mpr h]
  | uncomputed ht => cases ht

theorem step_register_eq_tooManyDigits_iff {height : Int} {candidates : CandidateSet} :
    (net.step i (.register height candidates)).1 = .error .tooManyDigits ↔
      (net.registerOf i).sets.isSetAt height = false ∧ ¬Writable height := by
  have hanswers := net.step_answers i (.register height candidates)
  generalize net.step i (.register height candidates) = answer at hanswers ⊢
  obtain ⟨reply, net'⟩ := answer
  cases hanswers with
  | registered _ h hw => simp [hw]
  | unreportedRegistration _ h hw => simp [h, hw]
  | heightTaken _ h => simp [h]
  | uncomputed ht => cases ht

/-- A height with a digit too many is refused after the tip has moved. -/
example :
    (exchange.step 0 (.advance (Nat.pow 10 maxDigits))).1 = .error .tooManyDigits ∧
      ((exchange.step 0 (.advance (Nat.pow 10 maxDigits))).2.tipOf 1).updates = 1 := by
  decide +kernel

end Network

end DelayedPayout
