import DelayedPayout.Meter.Exposition
import DelayedPayout.Network.Basic

/-!
Requests to the parties of a network, answered one after another. A refused request changes nothing but
the counters of what was computed and of what failed verification, and what it did before a line that it
could not write: the chain tip has moved, or the candidates are in force.
-/

namespace DelayedPayout

open Number

inductive Request where
  /-- A block of this height has been parsed. -/
  | advance (height : Int)
  | selectionHeight
  /-- Whether a peer's selection height is acceptable. -/
  | acceptable (peer : Int)
  /-- Refuses a peer's selection height unless it is acceptable. The refusal is reported with both heights
  and then counts as a failure. -/
  | require (peer : Int)
  | payout (trade : Trade)
  | receivers (trade : Trade)
  /-- Refuses a peer's outputs unless they are ours. -/
  | verify (trade : Trade) (outputs : List Output)
  | register (height : Int) (candidates : CandidateSet)
  | reset
  | exposition

inductive Reply where
  | done
  | height (height : Int)
  | verdict (acceptable : Bool)
  | payout (p : Payout)
  | receivers (receivers : List Receiver)
  | text (text : String)
  deriving DecidableEq

namespace Network

variable {tips meters parties : Nat}

def refuse (net : Network tips meters parties) (fault : Fault) :
    Except Fault Reply × Network tips meters parties :=
  (.error fault, net)

/-- Computes the outputs of a trade, counts the computation, and answers with what `finish` makes of
the outcome. -/
def compute (net : Network tips meters parties) (i : Fin parties) (trade : Trade)
    (finish : Payout → Network tips meters parties →
      Except Fault Reply × Network tips meters parties) :
    Except Fault Reply × Network tips meters parties :=
  match net.payout i trade with
  | .error fault => net.refuse fault
  | .ok p => finish p (net.updateMeter i (·.count p))

def step (net : Network tips meters parties) (i : Fin parties) :
    Request → Except Fault Reply × Network tips meters parties
  | .advance height =>
    match (net.tipOf i).notify height with
    | (.error fault, tip) => (net.setTip i tip).refuse fault
    | (.ok _, tip) => (.ok .done, (net.setTip i tip).updateMeter i (·.noteHeight height))
  | .selectionHeight => ((net.selectionHeight i).map .height, net)
  | .acceptable peer =>
    ((net.selectionHeight i).map fun ours => .verdict ((net.paramsOf i).accepts ours peer), net)
  | .require peer =>
    match net.selectionHeight i with
    | .error fault => net.refuse fault
    | .ok ours =>
      if (net.paramsOf i).accepts ours peer then (.ok .done, net)
      else match report [peer, ours] with
        | .error fault => net.refuse fault
        | .ok () => (net.updateMeter i Meter.countFailure).refuse (.selectionHeightMismatch ours peer)
  | .payout trade => net.compute i trade fun p after => (.ok (.payout p), after)
  | .receivers trade => net.compute i trade fun p after => (.ok (.receivers p.receivers), after)
  | .verify trade outputs =>
    net.compute i trade fun p after =>
      match checkOutputs trade.selectionHeight p.receivers outputs with
      | .ok expected => (.ok (.receivers expected), after)
      | .error (.receiverMismatch expected actual) =>
        (after.updateMeter i Meter.countFailure).refuse (.receiverMismatch expected actual)
      | .error fault => after.refuse fault
  | .register height candidates =>
    match (net.registerOf i).announce height candidates with
    | (.error fault, register) => (net.setRegister i register).refuse fault
    | (.ok (), register) => (.ok .done, net.setRegister i register)
  | .reset => (.ok .done, net.updateMeter i fun _ => .fresh)
  | .exposition => ((net.meterOf i).exposition.map .text, net)

/-- Answers requests in turn: each answer with the network after it. -/
def run (net : Network tips meters parties) :
    List (Fin parties × Request) → List (Except Fault Reply × Network tips meters parties)
  | [] => []
  | (i, request) :: rest =>
    let answer := net.step i request
    answer :: run answer.2 rest

end Network

end DelayedPayout
