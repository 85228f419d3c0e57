import DelayedPayout.Proofs.Network.Log

/-!
What a request does to what any party uses. A chain tip moves for the heights that are notified to a party
that shares it (`Network.tipOf_step`), candidates change for requests to their own party
(`Network.registerOf_step`), and counters for the requests to parties that share them
(`Network.meterOf_step`).
-/

namespace DelayedPayout

namespace Network

variable {tips meters parties : Nat} {net : Network tips meters parties}

theorem tipOf_eq_get {net' : Network tips meters parties} (h : net'.party = net.party)
    (i : Fin parties) : net'.tipOf i = net'.tip.get (net.party.get i).tip := by
  rw [← h]
  rfl

theorem meterOf_eq_get {net' : Network tips meters parties} (h : net'.party = net.party)
    (i : Fin parties) : net'.meterOf i = net'.meter.get (net.party.get i).meter := by
  rw [← h]
  rfl

theorem tip_get_setTip (net : Network tips meters parties) (i : Fin parties) (tip : ChainTip)
    (t : Fin tips) :
    (net.setTip i tip).tip.get t = if (net.party.get i).tip = t then tip else net.tip.get t :=
  get_set net.tip (net.party.get i).tip t tip

theorem registerOf_setRegister (net : Network tips meters parties) (i j : Fin parties)
    (register : Register) :
    (net.setRegister i register).registerOf j = if i = j then register else net.registerOf j :=
  get_set net.register i j register

/-- A tip moves when a height is notified to a party that uses it. -/
theorem tip_get_step (net : Network tips meters parties) (i : Fin parties) (request : Request)
    (t : Fin tips) :
    (net.step i request).2.tip.get t =
      if (net.party.get i).tip = t then (net.tip.get t).heed request else net.tip.get t := by
  have hmove : (net.step i request).2.tip.get t =
      (net.setTip i ((net.tipOf i).heed request)).tip.get t := by
    rw [step_eq_enter]
    rfl
  rw [hmove, tip_get_setTip]
  by_cases h : (net.party.get i).tip = t
  · rw [if_pos h, if_pos h, ← h]
    rfl
  · rw [if_neg h, if_neg h]

/-- The tip of a party moves when a height is notified to a party that shares it. -/
theorem tipOf_step (net : Network tips meters parties) (i j : Fin parties) (request : Request) :
    (net.step i request).2.tipOf j =
      if (net.party.get i).tip = (net.party.get j).tip then (net.tipOf j).heed request
      else net.tipOf j := by
  rw [tipOf_eq_get (step_party net i request), tip_get_step]
  rfl

/-- The candidates of a party change by requests to that party only. -/
theorem registerOf_step (net : Network tips meters parties) (i j : Fin parties) (request : Request) :
    (net.step i request).2.registerOf j =
      if i = j then (net.registerOf j).heed request else net.registerOf j := by
  have hadd : (net.step i request).2.registerOf j =
      (net.setRegister i ((net.registerOf i).heed request)).registerOf j := by
    rw [step_eq_enter]
    rfl
  rw [hadd, registerOf_setRegister]
  by_cases h : i = j
  · rw [if_pos h, if_pos h, h]
  · rw [if_neg h, if_neg h]

/-- The counters of a party change by requests to parties that share them. -/
theorem meterOf_step (net : Network tips meters parties) (i j : Fin parties) (request : Request) :
    (net.step i request).2.meterOf j =
      if (net.party.get i).meter = (net.party.get j).meter then
        (net.meterOf j).enter (net.entry i request)
      else net.meterOf j := by
  rw [meterOf_eq_get (step_party net i request), step_eq_enter, meter_get_enter]
  simp only [uses, decide_eq_true_eq]
  rfl

end Network

end DelayedPayout
