import DelayedPayout.Proofs.Network.Log
import Mathlib.Algebra.Ring.Int.Defs
import Mathlib.Data.List.DropRight
import Mathlib.Data.List.Induction

/-!
The counters as a tally of the log. Entering one more entry keeps them equal to what the entries since
the last reset add up to (`Meter.enter_tally`), so after any run they are that tally
(`Network.meter_eq_tally`). What was left to the miner is counted by the remainder, and adds up to what
the outputs leave of the amount by conservation (`Trade.burned_of_payout`).
-/

namespace DelayedPayout

/-- The counters of these payouts, of so many failures and of the latest height. -/
def Meter.ofRecord (payouts : List Payout) (failures : Nat) (height : Int) : Meter where
  computations := payouts.length
  fallbackOnly := payouts.countP (·.fallbackOnly)
  remainderToFallback := payouts.countP (·.remainderToFallback)
  remainderBurned := (payouts.map Payout.burned).sum
  skipped := (payouts.map (·.skipped)).sum
  dust := (payouts.map (·.dust)).sum
  verificationFailures := failures
  lastReceiverCount := (payouts.getLast?.map (·.receivers.length)).getD 0
  chainHeight := height

theorem Meter.count_ofRecord {payouts : List Payout} {failures : Nat} {height : Int} {p : Payout}
    (h : p.burned = if p.remainderToFallback then 0 else p.remainder) :
    (ofRecord payouts failures height).count p = ofRecord (payouts ++ [p]) failures height := by
  have htoNat : ∀ b : Bool, b.toNat = if b then 1 else 0 := by decide
  simp [count, ofRecord, h, htoNat]

variable {parties : Nat}

def sinceReset (l : List (Entry parties)) : List (Entry parties) := l.rtakeWhile (!·.isReset)

theorem sinceReset_concat_of_isReset (l : List (Entry parties)) {e : Entry parties}
    (h : e.isReset = true) : sinceReset (l ++ [e]) = [] := by
  rw [sinceReset, List.rtakeWhile_concat, if_neg (by simp [h])]

theorem sinceReset_concat_of_not_isReset (l : List (Entry parties)) {e : Entry parties}
    (h : e.isReset = false) : sinceReset (l ++ [e]) = sinceReset l ++ [e] := by
  rw [sinceReset, List.rtakeWhile_concat, if_pos (by simp [h]), sinceReset]

/-- The counters that the entries of a log add up to. -/
def Meter.tally (l : List (Entry parties)) : Meter :=
  ofRecord (l.filterMap Entry.computed) (l.countP Entry.failed)
    ((l.filterMap Entry.noted).getLast?.getD 0)

/-- The payout of an entry, if there is one, leaves its remainder to the miner or to the fallback
address. -/
def Entry.Balanced (e : Entry parties) : Prop :=
  ∀ p, e.computed = some p → p.burned = if p.remainderToFallback then 0 else p.remainder

theorem Meter.enter_tally {l : List (Entry parties)} {e : Entry parties} (hreset : e.isReset = false)
    (hb : e.Balanced) : (Meter.tally l).enter e = .tally (l ++ [e]) := by
  have hcounted : e.computed.elim (Meter.tally l) (Meter.tally l).count =
      ofRecord ((l ++ [e]).filterMap Entry.computed) (l.countP Entry.failed)
        ((l.filterMap Entry.noted).getLast?.getD 0) := by
    cases hc : e.computed with
    | none => simp [tally, hc]
    | some p => simp [tally, hc, count_ofRecord (hb p hc)]
  simp only [enter, hreset, hcounted, Bool.false_eq_true, ↓reduceIte]
  cases hf : e.failed <;> cases hn : e.noted <;>
    simp [tally, ofRecord, countFailure, noteHeight, hf, hn]

/-- Counters that are entered from a log are the tally of its last part. -/
theorem Meter.foldl_enter {l : List (Entry parties)} (h : ∀ e ∈ l, e.Balanced) :
    l.foldl Meter.enter .fresh = .tally (sinceReset l) := by
  induction l using List.reverseRecOn with
  | nil => rfl
  | append_singleton l e ih =>
    have hl : ∀ e' ∈ l, e'.Balanced := fun e' he' => h e' (by simp [he'])
    rw [List.foldl_append, List.foldl_cons, List.foldl_nil, ih hl]
    cases hreset : e.isReset with
    | true =>
      rw [sinceReset_concat_of_isReset l hreset, Meter.enter, if_pos hreset]
      rfl
    | false =>
      rw [sinceReset_concat_of_not_isReset l hreset]
      exact Meter.enter_tally hreset (h e (by simp))

namespace Network

variable {tips meters : Nat} {net : Network tips meters parties}

theorem balanced_entry (net : Network tips meters parties) (i : Fin parties) (request : Request) :
    (net.entry i request).Balanced := by
  intro p hp
  obtain ⟨trade, _, hpayout⟩ := Option.bind_eq_some_iff.mp hp
  cases h : net.payout i trade with
  | error fault => simp [h, Except.toOption] at hpayout
  | ok p' =>
    simp only [h, Except.toOption, Option.some.injEq] at hpayout
    exact hpayout ▸ Trade.burned_of_payout h

theorem balanced_of_mem_log {history : List (Fin parties × Request)} {e : Entry parties}
    (h : e ∈ net.log history) : e.Balanced := by
  induction history generalizing net with
  | nil => cases h
  | cons request history ih =>
    obtain ⟨i, request⟩ := request
    rcases List.mem_cons.mp h with rfl | h
    · exact net.balanced_entry i request
    · exact ih h

/-- The counters of a network that is built start at zero. -/
theorem meter_get_of_build {sharedTips sharedMeters : Nat} {heights : Vector Int sharedTips}
    {setups : Vector (Setup sharedTips sharedMeters) parties}
    {net : Network (sharedTips + parties) (sharedMeters + parties) parties}
    (h : build heights setups = .ok net) (m : Fin (sharedMeters + parties)) :
    net.meter.get m = .fresh := by
  obtain ⟨_, _, _, _, rfl⟩ := build_eq_ok h
  exact Vector.getElem_replicate m.isLt

/-- **The counters are exact.** However parties share them, counters that start at zero are after any run
what the log says since their last reset of the parties that use them: how many payouts were computed and
what these add up to, how often a peer's view failed, how many receivers the last payout has, and the last
height notified. -/
theorem meter_eq_tally (history : List (Fin parties × Request)) {m : Fin meters}
    (h : net.meter.get m = .fresh) :
    (net.after history).meter.get m =
      .tally (sinceReset ((net.log history).filter (net.uses m))) := by
  rw [meter_get_after, h]
  exact Meter.foldl_enter fun e he => balanced_of_mem_log (List.mem_of_mem_filter he)

/-- A party that uses the shared chain tip and counters. -/
def poolSetup (candidates : List (Int × CandidateSet)) : Setup 1 1 where
  params := fun p => .int (Param.standard p)
  genesis := 0
  fallbacks := [(0, some "fallback")]
  candidates
  tip := some (Fin.last 0)
  meter := some (Fin.last 0)

/-- A candidate with half of the shares is known to the first of two parties only. -/
def pool : Except Fault (Network 3 3 2) :=
  build #v[0] #v[poolSetup [(100, .ofList [("1", partner "first" "x")])], poolSetup []]

/-- After the reset, that counts for both, each computes its payout, the first one refuses the outputs of
the second, and a height is refused. -/
def poolHistory (first second : Fin 2) : List (Fin 2 × Request) :=
  [(first, .payout exchangeTrade), (second, .advance 120), (second, .reset), (first, .advance 130),
    (second, .receivers exchangeTrade),
    (first, .verify exchangeTrade [.row 100000 "fallback"]), (second, .advance (-1)),
    (first, .payout exchangeTrade)]

/-- The first party leaves half of what it splits to the miner, in its payout and in the verification. -/
def poolMeter : Meter where
  computations := 3
  fallbackOnly := 1
  remainderBurned := 2 * 49253
  verificationFailures := 1
  lastReceiverCount := 1
  chainHeight := 130

theorem meter_eq_tally_pool :
    ∃ net, pool = .ok net ∧ (net.after (poolHistory 0 1)).meter.get 0 = poolMeter := by
  have htally : (pool.map fun net =>
      Meter.tally (sinceReset ((net.log (poolHistory 0 1)).filter (net.uses 0)))) =
        .ok poolMeter := by decide +kernel
  cases hpool : pool with
  | error fault =>
    rw [hpool] at htally
    cases htally
  | ok net =>
    rw [hpool] at htally
    exact ⟨net, rfl, (meter_eq_tally (poolHistory 0 1) (meter_get_of_build hpool 0)).trans
      (Except.ok.inj htally)⟩

end Network

end DelayedPayout
