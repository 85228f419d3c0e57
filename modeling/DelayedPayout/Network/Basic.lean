import DelayedPayout.Meter.Basic
import DelayedPayout.Network.Party

/-!
Parties that compute payouts side by side. Each has its own parameters, ledger and candidates; chain tips
and counters may be shared in any way.
-/

namespace DelayedPayout

/-- The fixed part of a party, and which tip and which counters it uses. -/
structure Party (tips meters : Nat) where
  params : Params
  ledger : Ledger
  tip : Fin tips
  meter : Fin meters

/-- The parties with all that changes: candidates, chain tips and counters. -/
structure Network (tips meters parties : Nat) where
  party : Vector (Party tips meters) parties
  register : Vector Register parties
  tip : Vector ChainTip tips
  meter : Vector Meter meters

/-- How a party is set up. One that names no shared tip or counters gets its own. -/
structure Setup (sharedTips sharedMeters : Nat) where
  params : Param → Scalar
  genesis : Int
  fallbacks : List (Int × Option String)
  candidates : List (Int × CandidateSet)
  tip : Option (Fin sharedTips)
  meter : Option (Fin sharedMeters)

/-- The party of a setup, with its register: behind the shared tips and counters there is one of each
for every party. -/
def Setup.party {sharedTips sharedMeters parties : Nat} (setup : Setup sharedTips sharedMeters)
    (i : Fin parties) :
    Except Fault (Party (sharedTips + parties) (sharedMeters + parties) × Register) := do
  let params ← Params.ofScalars setup.params
  let ledger ← Ledger.ofEntries setup.genesis setup.fallbacks
  let register ← Register.start setup.candidates
  let party := {
    params
    ledger
    tip := (setup.tip.map (Fin.castAdd parties)).getD (Fin.natAdd sharedTips i)
    meter := (setup.meter.map (Fin.castAdd parties)).getD (Fin.natAdd sharedMeters i) }
  return (party, register)

namespace Network

/-- The network of shared tips with these initial heights and of parties with these setups. -/
def build {sharedTips sharedMeters parties : Nat} (heights : Vector Int sharedTips)
    (setups : Vector (Setup sharedTips sharedMeters) parties) :
    Except Fault (Network (sharedTips + parties) (sharedMeters + parties) parties) := do
  let tips ← heights.mapM ChainTip.start
  let members ← setups.mapFinIdxM fun i setup h => setup.party ⟨i, h⟩
  return {
    party := members.map Prod.fst
    register := members.map Prod.snd
    tip := tips ++ Vector.replicate parties ChainTip.origin
    meter := Vector.replicate (sharedMeters + parties) Meter.fresh }

variable {tips meters parties : Nat}

def tipOf (net : Network tips meters parties) (i : Fin parties) : ChainTip :=
  net.tip[net.party[i].tip]

def meterOf (net : Network tips meters parties) (i : Fin parties) : Meter :=
  net.meter[net.party[i].meter]

def paramsOf (net : Network tips meters parties) (i : Fin parties) : Params := net.party[i].params

def registerOf (net : Network tips meters parties) (i : Fin parties) : Register := net.register[i]

def setTip (net : Network tips meters parties) (i : Fin parties) (tip : ChainTip) :
    Network tips meters parties :=
  { net with tip := net.tip.set net.party[i].tip tip }

def updateMeter (net : Network tips meters parties) (i : Fin parties) (f : Meter → Meter) :
    Network tips meters parties :=
  { net with meter := net.meter.set net.party[i].meter (f (net.meterOf i)) }

def setRegister (net : Network tips meters parties) (i : Fin parties) (register : Register) :
    Network tips meters parties :=
  { net with register := net.register.set i register }

def selectionHeight (net : Network tips meters parties) (i : Fin parties) : Except Fault Int :=
  DelayedPayout.selectionHeight (net.paramsOf i) net.party[i].ledger (net.tipOf i)

def payout (net : Network tips meters parties) (i : Fin parties) (trade : Trade) :
    Except Fault Payout :=
  trade.payout (net.paramsOf i) net.party[i].ledger (net.registerOf i)

end Network

end DelayedPayout
