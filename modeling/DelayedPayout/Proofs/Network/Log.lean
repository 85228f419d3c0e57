import DelayedPayout.Proofs.Network.Answers

/-!
The log of a run. An entry says what was requested of which party, which payout was computed on the way
and what the answer was. That is all there is to a request (`Network.step_eq_enter`): what it does to
chain tips and candidates does not even depend on the answer (`ChainTip.heed`, `Register.heed`). So the
counters after a run are those before it with the entries of their parties entered one by one
(`Network.meter_get_after`).
-/

namespace DelayedPayout

/-! ## Chain tips and candidates -/

/-- The chain height that a request notifies, reported or not. -/
def Request.notified : Request → Option Int
  | .advance height => if height < 0 then none else some height
  | _ => none

/-- The tip after a request to a party that uses it. -/
def ChainTip.heed (tip : ChainTip) (request : Request) : ChainTip :=
  request.notified.elim tip fun height => ⟨height.toNat, tip.updates + 1⟩

/-- The candidates after a request to their party. -/
def Register.heed (register : Register) : Request → Register
  | .register height candidates =>
    if register.sets.isSetAt height then register else ⟨register.sets.set height candidates⟩
  | _ => register

theorem ChainTip.heed_of_notified_eq_none {tip : ChainTip} {request : Request}
    (h : request.notified = none) : tip.heed request = tip := by
  rw [heed, h]
  rfl

theorem ChainTip.heed_advance {tip : ChainTip} {height : Int} (h : 0 ≤ height) :
    tip.heed (.advance height) = ⟨height.toNat, tip.updates + 1⟩ := by
  rw [heed, Request.notified, if_neg (Int.not_lt.mpr h)]
  rfl

theorem ChainTip.heed_advance_of_neg {tip : ChainTip} {height : Int} (h : height < 0) :
    tip.heed (.advance height) = tip :=
  heed_of_notified_eq_none (if_pos h)

theorem Register.heed_of_not_isSetAt {register : Register} {height : Int} (candidates : CandidateSet)
    (h : register.sets.isSetAt height = false) :
    register.heed (.register height candidates) = ⟨register.sets.set height candidates⟩ := by
  rw [heed, h]
  rfl

theorem Register.heed_of_isSetAt {register : Register} {height : Int} (candidates : CandidateSet)
    (h : register.sets.isSetAt height = true) :
    register.heed (.register height candidates) = register := by
  rw [heed, if_pos h]

/-! ## Entries -/

structure Entry (parties : Nat) where
  party : Fin parties
  request : Request
  /-- The payout that was computed on the way to the answer. -/
  computed : Option Payout
  reply : Except Fault Reply

namespace Entry

variable {parties : Nat}

/-- Whether a peer's view failed verification. -/
def failed (e : Entry parties) : Bool :=
  match e.reply with
  | .error fault => fault.isMismatch
  | .ok _ => false

/-- The chain height that is noted: one that was notified and reported. -/
def noted (e : Entry parties) : Option Int :=
  match e.request, e.reply with
  | .advance height, .ok _ => some height
  | _, _ => none

def isReset (e : Entry parties) : Bool :=
  match e.request with
  | .reset => true
  | _ => false

end Entry

def Meter.enter {parties : Nat} (m : Meter) (e : Entry parties) : Meter :=
  if e.isReset then .fresh
  else
    let counted := e.computed.elim m m.count
    let judged := if e.failed then counted.countFailure else counted
    e.noted.elim judged judged.noteHeight

namespace Network

variable {tips meters parties : Nat} {net : Network tips meters parties} {i : Fin parties}

/-- The payout that is computed for a request, if one is asked for and there is one. -/
def computed (net : Network tips meters parties) (i : Fin parties) (request : Request) :
    Option Payout :=
  request.trade?.bind fun trade => (net.payout i trade).toOption

def entry (net : Network tips meters parties) (i : Fin parties) (request : Request) : Entry parties :=
  ⟨i, request, net.computed i request, (net.step i request).1⟩

def enter (net : Network tips meters parties) (e : Entry parties) : Network tips meters parties :=
  ((net.setTip e.party ((net.tipOf e.party).heed e.request)).setRegister e.party
    ((net.registerOf e.party).heed e.request)).updateMeter e.party (·.enter e)

/-! ## Entering a request -/

/-- An entry that leaves the tip and the candidates alone reaches the counters only. -/
theorem enter_eq_updateMeter {e : Entry parties}
    (htip : (net.tipOf e.party).heed e.request = net.tipOf e.party)
    (hregister : (net.registerOf e.party).heed e.request = net.registerOf e.party) :
    net.enter e = net.updateMeter e.party (·.enter e) := by
  rw [enter, htip, hregister, setTip_tipOf, setRegister_registerOf]

theorem enter_advance {height : Int} (h : 0 ≤ height) (c : Option Payout) (reply : Except Fault Reply) :
    net.enter ⟨i, .advance height, c, reply⟩ =
      (net.setTip i ⟨height.toNat, (net.tipOf i).updates + 1⟩).updateMeter i
        (·.enter ⟨i, .advance height, c, reply⟩) := by
  have hregister := setRegister_registerOf
    (net.setTip i ⟨height.toNat, (net.tipOf i).updates + 1⟩) i
  rw [enter, ChainTip.heed_advance h]
  exact congrArg (updateMeter · i _) hregister

theorem enter_register {height : Int} {candidates : CandidateSet}
    (h : (net.registerOf i).sets.isSetAt height = false) (c : Option Payout)
    (reply : Except Fault Reply) :
    net.enter ⟨i, .register height candidates, c, reply⟩ =
      (net.setRegister i ⟨(net.registerOf i).sets.set height candidates⟩).updateMeter i
        (·.enter ⟨i, .register height candidates, c, reply⟩) := by
  rw [enter, Register.heed_of_not_isSetAt candidates h]
  exact congrArg (updateMeter · i _) (congrArg (setRegister · i _) (setTip_tipOf net i))

theorem computed_eq_none {request : Request} {trade : Trade} {fault : Fault}
    (ht : request.trade? = some trade) (hp : net.payout i trade = .error fault) :
    net.computed i request = none := by
  rw [computed, ht, Option.bind_some, hp]
  rfl

theorem computed_eq_some {request : Request} {trade : Trade} {p : Payout}
    (ht : request.trade? = some trade) (hp : net.payout i trade = .ok p) :
    net.computed i request = some p := by
  rw [computed, ht, Option.bind_some, hp]
  rfl

theorem Answers.eq_enter {net' : Network tips meters parties} {request : Request}
    {reply : Except Fault Reply} (h : net.Answers i request reply net') :
    net' = net.enter ⟨i, request, net.computed i request, reply⟩ := by
  cases h with
  | advanced h =>
    rw [enter_advance h]
    rfl
  | unreportedAdvance h =>
    rw [enter_advance h]
    exact (updateMeter_id _ i).symm
  | negativeHeight h =>
    rw [enter_eq_updateMeter (ChainTip.heed_advance_of_neg h) rfl]
    exact (updateMeter_id net i).symm
  | registered candidates h | unreportedRegistration candidates h =>
    rw [enter_register h]
    exact (updateMeter_id _ i).symm
  | heightTaken candidates h =>
    rw [enter_eq_updateMeter rfl (Register.heed_of_isSetAt candidates h)]
    exact (updateMeter_id net i).symm
  | uncomputed ht hp =>
    have hf := Trade.isMismatch_of_payout_eq_error hp
    rw [computed_eq_none ht hp]
    cases request <;> cases ht <;> rw [enter_eq_updateMeter rfl rfl] <;>
      simp [Meter.enter, Entry.isReset, Entry.failed, Entry.noted, hf]
  | malformedOutput hp _ hf =>
    have hf' := Fault.isMismatch_of_isMalformedOutput hf
    rw [computed_eq_some rfl hp, enter_eq_updateMeter rfl rfl]
    simp [Meter.enter, Entry.isReset, Entry.failed, Entry.noted, hf']
  | payout hp | receivers hp | verified _ _ hp | unreportedMismatch _ hp =>
    rw [computed_eq_some rfl hp, enter_eq_updateMeter rfl rfl]
    rfl
  | receiverMismatch outputs actual hp =>
    rw [computed_eq_some rfl hp, enter_eq_updateMeter rfl rfl, updateMeter_updateMeter]
    rfl
  | heightMismatch | reset =>
    rw [enter_eq_updateMeter rfl rfl]
    rfl
  | _ =>
    rw [enter_eq_updateMeter rfl rfl]
    exact (updateMeter_id net i).symm

/-- A request does no more than its entry says. -/
theorem step_eq_enter (net : Network tips meters parties) (i : Fin parties) (request : Request) :
    (net.step i request).2 = net.enter (net.entry i request) :=
  (net.step_answers i request).eq_enter

/-! ## Entering a history -/

def log (net : Network tips meters parties) : List (Fin parties × Request) → List (Entry parties)
  | [] => []
  | (i, request) :: rest => net.entry i request :: (net.step i request).2.log rest

/-- Whether an entry is about a party that uses these counters. -/
def uses (net : Network tips meters parties) (m : Fin meters) (e : Entry parties) : Bool :=
  (net.party.get e.party).meter = m

theorem meter_get_enter (net : Network tips meters parties) (e : Entry parties) (m : Fin meters) :
    (net.enter e).meter.get m =
      if net.uses m e then (net.meter.get m).enter e else net.meter.get m := by
  rw [enter, meter_get_updateMeter]
  simp only [uses, decide_eq_true_eq]
  rfl

/-- The counters after a run are those before it, entered from the log. -/
theorem meter_get_after (net : Network tips meters parties)
    (history : List (Fin parties × Request)) (m : Fin meters) :
    (net.after history).meter.get m =
      ((net.log history).filter (net.uses m)).foldl Meter.enter (net.meter.get m) := by
  induction history generalizing net with
  | nil => rfl
  | cons request history ih =>
    obtain ⟨i, request⟩ := request
    have huses : (net.step i request).2.uses m = net.uses m := by
      funext e
      rw [uses, uses, step_party]
    rw [after, log, ih, huses, step_eq_enter, meter_get_enter, List.filter_cons]
    split <;> rfl

end Network

end DelayedPayout
