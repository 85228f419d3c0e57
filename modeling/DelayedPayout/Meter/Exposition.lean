import DelayedPayout.Fault
import DelayedPayout.Meter.Basic

/-!
The counters as a text for monitoring: for each of them a line of help, a line with its kind, and a line
with its value.
-/

namespace DelayedPayout

open Number

/-- A number for monitoring. A counter only grows between resets, a gauge may fall. -/
structure Sample where
  name : String
  kind : String
  help : String
  value : Int

def Sample.lines (s : Sample) : List String :=
  [s!"# HELP {s.name} {s.help}", s!"# TYPE {s.name} {s.kind}", s!"{s.name} {s.value}"]

namespace Meter

def samples (m : Meter) : List Sample :=
  [⟨"burnpayout_computations_total", "counter",
      "Total number of DPT receiver computations", m.computations⟩,
    ⟨"burnpayout_fallback_only_total", "counter",
      "Computations without candidates, paid fully to the legacy burning man", m.fallbackOnly⟩,
    ⟨"burnpayout_remainder_to_fallback_total", "counter",
      "Computations that sent a remainder to the legacy burning man", m.remainderToFallback⟩,
    ⟨"burnpayout_remainder_burned_sats_total", "counter",
      "Satoshis left to the miner on top of the reserved fee", m.remainderBurned⟩,
    ⟨"burnpayout_skipped_without_address_total", "counter",
      "Candidates skipped because they have no payout address", m.skipped⟩,
    ⟨"burnpayout_dropped_as_dust_total", "counter",
      "Candidate outputs dropped below the min output amount", m.dust⟩,
    ⟨"burnpayout_verification_failures_total", "counter",
      "Peer DPT outputs or selection heights that failed verification", m.verificationFailures⟩,
    ⟨"burnpayout_last_receiver_count", "gauge",
      "Number of receivers in the last computation", m.lastReceiverCount⟩,
    ⟨"burnpayout_chain_height", "gauge",
      "Latest observed chain height", m.chainHeight⟩]

/-- The text for monitoring; every line ends in a line feed. -/
def exposition (m : Meter) : Except Fault String := do
  report (m.samples.map Sample.value)
  return String.join ((m.samples.flatMap Sample.lines).map (· ++ "\n"))

end Meter

end DelayedPayout
