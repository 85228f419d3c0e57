import DelayedPayout.Proofs.Network.Run
import DelayedPayout.Proofs.Payout.Reordering
import DelayedPayout.Proofs.Trade.Outcome

/-!
Two parties of a trade agree. What has happened to either before, in which order and under which keys
its candidates arrived, and which other candidates it knows makes no difference
(`Trade.payout_of_perm`), and each accepts exactly the outputs that the other computes
(`checkOutputs_eq`).
-/

namespace DelayedPayout

open Number

/-- An output that has an amount and an address. -/
def Output.IsPair : Output → Prop
  | .ragged _ _ => False
  | _ => True

theorem Output.toReceiver_of_isPair {o : Output} (h : o.IsPair) : ∃ r, o.toReceiver = .ok r := by
  cases o with
  | receiver r => exact ⟨r, rfl⟩
  | row amount address => exact ⟨⟨amount, address⟩, rfl⟩
  | ragged cells notTwo => exact h.elim

/-- Outputs are compared as receivers, all at once. -/
theorem checkOutputs_eq {height : Int} {expected actual : List Receiver} {outputs : List Output}
    (h : outputs.mapM Output.toReceiver = .ok actual) :
    checkOutputs height expected outputs =
      if actual = expected then .ok expected
      else if Reportable (height :: (expected ++ actual).map Receiver.amount) then
        .error (.receiverMismatch expected actual)
      else .error .tooManyDigits := by
  rw [checkOutputs, h]
  by_cases heq : actual = expected
  · rw [if_pos heq]
    exact if_pos heq.symm
  · rw [if_neg heq, ← report_bind]
    exact if_neg (Ne.symm heq)

namespace Trade

/-- A payout depends on the candidates at the selection height up to their order, and on the fallback
address at that height. -/
theorem payout_of_perm {trade : Trade} {params : Params} {ledger ledger' : Ledger}
    {register register' : Register} {p : Payout}
    (hledger : ledger'.fallbackAt trade.selectionHeight = ledger.fallbackAt trade.selectionHeight)
    (h : (register'.inForceAt trade.selectionHeight).values.Perm
      (register.inForceAt trade.selectionHeight).values)
    (hp : trade.payout params ledger register = .ok p) :
    trade.payout params ledger' register' = .ok p := by
  by_cases hne : (register.inForceAt trade.selectionHeight).values = []
  · rw [hne] at h
    rw [payout_eq_ok_iff_of_no_candidates h.eq_nil, hledger]
    exact (payout_eq_ok_iff_of_no_candidates hne).mp hp
  · have hne' : (register'.inForceAt trade.selectionHeight).values ≠ [] := by
      intro hnil
      rw [hnil] at h
      exact hne h.symm.eq_nil
    obtain ⟨hinput, hfee, rule, spendable, hrule, hafter, hsplit, hreport⟩ := (payout_eq_ok_iff hne).mp hp
    rw [payout_eq_ok_iff hne', hledger, h.length_eq]
    exact ⟨hinput, hfee, rule, spendable, hrule, hafter, split_of_perm h hsplit, hreport⟩

end Trade

namespace Network

variable {tips meters parties tips' meters' parties' : Nat} {net : Network tips meters parties}
  {net' : Network tips' meters' parties'} {i : Fin parties} {j : Fin parties'}

/-- A candidate with half of the shares. -/
def partner (name address : String) : Candidate :=
  ⟨name, .real (Binary64.ofBits 0x3fe0000000000000), some address⟩

/-- Two parties that share a chain tip. They know the same two candidates, in different order and under
different keys. -/
def exchange : Network 1 2 2 where
  party :=
    let ledger : Ledger := ⟨0, Timeline.ofList [(0, some "fallback")], by decide⟩
    #v[⟨.standard, ledger, 0, 0⟩, ⟨.standard, ledger, 0, 1⟩]
  register :=
    #v[.ofRows [(100, .ofList [("1", partner "first" "x"), ("2", partner "second" "y")])],
      .ofRows [(90, .ofList [("b", partner "second" "y"), ("a", partner "first" "x")])]]
  tip := Vector.replicate 1 ChainTip.origin
  meter := Vector.replicate 2 Meter.fresh

def exchangeTrade : Trade where
  selectionHeight := 110
  input := 100000
  fee := 5000

/-- Something happens to the second party in between. -/
def exchangeHistory : List (Fin 2 × Request) :=
  [(1, .advance 130), (1, .register 120 .empty), (1, .payout exchangeTrade), (1, .reset)]

/-- The fee of a transaction with two outputs is 2070 satoshis. -/
def exchangePayout : Payout where
  receivers := [⟨48965, "x"⟩, ⟨48965, "y"⟩]
  spendable := 97930

end Network

end DelayedPayout
