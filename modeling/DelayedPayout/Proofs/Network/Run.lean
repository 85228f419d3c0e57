import DelayedPayout.Network.Step
import DelayedPayout.Proofs.Traversal

/-!
Runs of a network: the state and the answer after a history of requests. Parameters and ledgers are
fixed: no request changes them (`step_party`), so no history does (`after_party`).
-/

namespace DelayedPayout.Network

variable {tips meters parties : Nat} {net : Network tips meters parties} {i : Fin parties}

def ledgerOf (net : Network tips meters parties) (i : Fin parties) : Ledger := (net.party.get i).ledger

/-- The network after a history of requests. -/
def after (net : Network tips meters parties) : List (Fin parties × Request) →
    Network tips meters parties
  | [] => net
  | (i, request) :: rest => (net.step i request).2.after rest

/-- The answer to a request after a history of requests. -/
def answer (net : Network tips meters parties) (history : List (Fin parties × Request))
    (i : Fin parties) (request : Request) : Except Fault Reply :=
  ((net.after history).step i request).1

theorem after_concat (history : List (Fin parties × Request)) (request : Request) :
    net.after (history ++ [(i, request)]) = ((net.after history).step i request).2 := by
  induction history generalizing net with
  | nil => rfl
  | cons entry history ih => exact ih

theorem run_append (history rest : List (Fin parties × Request)) :
    net.run (history ++ rest) = net.run history ++ (net.after history).run rest := by
  induction history generalizing net with
  | nil => rfl
  | cons entry history ih =>
    obtain ⟨i, request⟩ := entry
    rw [List.cons_append, run, run, ih, after, List.cons_append]

/-- The answer is the last one of the run. -/
theorem getLast?_run (history : List (Fin parties × Request)) (request : Request) :
    (net.run (history ++ [(i, request)])).getLast?.map Prod.fst =
      some (net.answer history i request) := by
  rw [run_append, run, run, List.getLast?_append]
  rfl

/-! ## Before a run -/

theorem build_eq_ok {sharedTips sharedMeters : Nat} {heights : Vector Int sharedTips}
    {setups : Vector (Setup sharedTips sharedMeters) parties}
    {net : Network (sharedTips + parties) (sharedMeters + parties) parties}
    (h : build heights setups = .ok net) :
    ∃ started members, heights.mapM ChainTip.start = .ok started ∧
      setups.mapFinIdxM (fun i setup h => setup.party ⟨i, h⟩) = .ok members ∧
      net = {
        party := members.map Prod.fst
        register := members.map Prod.snd
        tip := started ++ Vector.replicate parties ChainTip.origin
        meter := Vector.replicate (sharedMeters + parties) Meter.fresh } := by
  obtain ⟨started, hstart, h⟩ := bind_eq_ok_iff.mp h
  obtain ⟨members, hmembers, h⟩ := bind_eq_ok_iff.mp h
  cases h
  exact ⟨started, members, hstart, hmembers, rfl⟩

/-! ## What is fixed -/

theorem compute_party {trade : Trade}
    {finish : Payout → Network tips meters parties →
      Except Fault Reply × Network tips meters parties}
    (h : ∀ p net', (finish p net').2.party = net'.party) :
    (net.compute i trade finish).2.party = net.party := by
  unfold compute
  cases net.payout i trade with
  | error fault => rfl
  | ok p => exact h p _

theorem step_party (net : Network tips meters parties) (i : Fin parties) (request : Request) :
    (net.step i request).2.party = net.party := by
  cases request with
  | advance height =>
    rw [step]
    rcases (net.tipOf i).notify height with ⟨_ | _, tip⟩ <;> rfl
  | require peer =>
    rw [step]
    cases net.selectionHeight i with
    | error fault => rfl
    | ok ours =>
      simp only
      split
      · rfl
      · cases report [peer, ours] <;> rfl
  | payout trade => exact compute_party fun _ _ => rfl
  | receivers trade => exact compute_party fun _ _ => rfl
  | verify trade outputs =>
    apply compute_party
    intro p net'
    split <;> rfl
  | register height candidates =>
    rw [step]
    rcases (net.registerOf i).announce height candidates with ⟨_ | _, register⟩ <;> rfl
  | _ => rfl

theorem after_party (history : List (Fin parties × Request)) :
    (net.after history).party = net.party := by
  induction history generalizing net with
  | nil => rfl
  | cons entry history ih =>
    obtain ⟨i, request⟩ := entry
    rw [after, ih, step_party]

theorem paramsOf_after (history : List (Fin parties × Request)) (i : Fin parties) :
    (net.after history).paramsOf i = net.paramsOf i := by
  rw [paramsOf, paramsOf, after_party]

theorem ledgerOf_after (history : List (Fin parties × Request)) (i : Fin parties) :
    (net.after history).ledgerOf i = net.ledgerOf i := by
  rw [ledgerOf, ledgerOf, after_party]

/-! ## Answers -/

/-- A payout is computed from what is fixed and the candidates, and from no chain tip or counter. -/
theorem payout_eq (i : Fin parties) (trade : Trade) :
    net.payout i trade = trade.payout (net.paramsOf i) (net.ledgerOf i) (net.registerOf i) :=
  rfl

theorem answer_payout (history : List (Fin parties × Request)) (trade : Trade) :
    net.answer history i (.payout trade) = ((net.after history).payout i trade).map .payout := by
  rw [answer, step, compute]
  cases (net.after history).payout i trade <;> rfl

/-- The answer depends on what is fixed and on the candidates after the history. -/
theorem answer_payout_eq (history : List (Fin parties × Request)) (trade : Trade) :
    net.answer history i (.payout trade) =
      (trade.payout (net.paramsOf i) (net.ledgerOf i) ((net.after history).registerOf i)).map
        .payout := by
  rw [answer_payout, payout_eq, paramsOf_after, ledgerOf_after]

theorem answer_payout_eq_ok_iff {history : List (Fin parties × Request)} {trade : Trade} {p : Payout} :
    net.answer history i (.payout trade) = .ok (.payout p) ↔
      trade.payout (net.paramsOf i) (net.ledgerOf i) ((net.after history).registerOf i) = .ok p := by
  rw [answer_payout_eq]
  cases trade.payout (net.paramsOf i) (net.ledgerOf i) ((net.after history).registerOf i) <;>
    simp [Except.map]

theorem payout_of_answer {history : List (Fin parties × Request)} {trade : Trade} {p : Payout}
    (h : net.answer history i (.payout trade) = .ok (.payout p)) :
    trade.payout (net.paramsOf i) (net.ledgerOf i) ((net.after history).registerOf i) = .ok p :=
  answer_payout_eq_ok_iff.mp h

theorem answer_verify (history : List (Fin parties × Request)) (trade : Trade)
    (outputs : List Output) :
    net.answer history i (.verify trade outputs) =
      ((net.after history).payout i trade).bind fun p =>
        (checkOutputs trade.selectionHeight p.receivers outputs).map .receivers := by
  rw [answer, step, compute]
  cases (net.after history).payout i trade with
  | error fault => rfl
  | ok p =>
    simp only [Except.bind]
    cases checkOutputs trade.selectionHeight p.receivers outputs with
    | ok expected => rfl
    | error fault => cases fault <;> rfl

/-! ## A party by itself -/

/-- A ledger that starts at height zero and keeps its fallback address. -/
def lasting (address : String) : Ledger :=
  ⟨0, Timeline.ofList [(0, some address)], List.cons_ne_nil _ _⟩

/-- A party on the main network whose candidates are the same at all heights. -/
def solo (candidates : List Candidate) : Network 1 1 1 where
  party := #v[⟨.standard, lasting "fallback", Fin.last 0, Fin.last 0⟩]
  register := #v[.ofRows [(0, .ofList (candidates.map fun c => (c.name, c)))]]
  tip := Vector.replicate 1 ChainTip.origin
  meter := Vector.replicate 1 Meter.fresh

end DelayedPayout.Network
