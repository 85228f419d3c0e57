import DelayedPayout.Candidate
import DelayedPayout.ChainTip
import DelayedPayout.Fault
import DelayedPayout.FeeRule
import DelayedPayout.Grid
import DelayedPayout.Keyed
import DelayedPayout.Ledger
import DelayedPayout.Meter.Basic
import DelayedPayout.Meter.Exposition
import DelayedPayout.Network.Basic
import DelayedPayout.Network.Party
import DelayedPayout.Network.Step
import DelayedPayout.Number.Binary64
import DelayedPayout.Number.DigitLimit
import DelayedPayout.Number.HalfUp
import DelayedPayout.Number.Layout
import DelayedPayout.Number.Nearest
import DelayedPayout.Number.Numeral
import DelayedPayout.Number.Shortest
import DelayedPayout.Params.Basic
import DelayedPayout.Params.Environment
import DelayedPayout.Params.Param
import DelayedPayout.Payout.Basic
import DelayedPayout.Payout.Split
import DelayedPayout.Payout.Trim
import DelayedPayout.Proofs.Grid.Window
import DelayedPayout.Proofs.Ledger.Fallback
import DelayedPayout.Proofs.Network.Agreement
import DelayedPayout.Proofs.Network.Answers
import DelayedPayout.Proofs.Network.Effects
import DelayedPayout.Proofs.Network.GenesisBound
import DelayedPayout.Proofs.Network.Log
import DelayedPayout.Proofs.Network.Noninterference
import DelayedPayout.Proofs.Network.Notification
import DelayedPayout.Proofs.Network.Run
import DelayedPayout.Proofs.Network.SelectionHeight
import DelayedPayout.Proofs.Network.Supersession
import DelayedPayout.Proofs.Network.Tally
import DelayedPayout.Proofs.Network.Tolerance
import DelayedPayout.Proofs.Number.Binary64
import DelayedPayout.Proofs.Number.HalfEven
import DelayedPayout.Proofs.Number.HalfUp
import DelayedPayout.Proofs.Number.IntegerText
import DelayedPayout.Proofs.Number.Monotone
import DelayedPayout.Proofs.Number.Quotient
import DelayedPayout.Proofs.Number.Range
import DelayedPayout.Proofs.Number.Rounding
import DelayedPayout.Proofs.Params.Basic
import DelayedPayout.Proofs.Params.Environment
import DelayedPayout.Proofs.Payout.Accounting
import DelayedPayout.Proofs.Payout.Conservation
import DelayedPayout.Proofs.Payout.Due
import DelayedPayout.Proofs.Payout.Grounds
import DelayedPayout.Proofs.Payout.LegitimateShares
import DelayedPayout.Proofs.Payout.LongestPrefix
import DelayedPayout.Proofs.Payout.Outcome
import DelayedPayout.Proofs.Payout.Refusal
import DelayedPayout.Proofs.Payout.Reordering
import DelayedPayout.Proofs.Payout.Shape
import DelayedPayout.Proofs.Payout.ShareOrder
import DelayedPayout.Proofs.Payout.SinglePass
import DelayedPayout.Proofs.Payout.Trimming
import DelayedPayout.Proofs.Receiver.Order
import DelayedPayout.Proofs.Register.Registration
import DelayedPayout.Proofs.Text.Blank
import DelayedPayout.Proofs.Timeline.Lookup
import DelayedPayout.Proofs.Trade.Balance
import DelayedPayout.Proofs.Trade.FeeCoverage
import DelayedPayout.Proofs.Trade.FeeOrder
import DelayedPayout.Proofs.Trade.FeeRate
import DelayedPayout.Proofs.Trade.LeastOutput
import DelayedPayout.Proofs.Trade.Outcome
import DelayedPayout.Proofs.Trade.Refusal
import DelayedPayout.Proofs.Traversal
import DelayedPayout.Receiver
import DelayedPayout.Register
import DelayedPayout.Scalar
import DelayedPayout.Text.Blank
import DelayedPayout.Text.Digit
import DelayedPayout.Text.Printable
import DelayedPayout.Text.Quoted
import DelayedPayout.Text.Range
import DelayedPayout.Timeline
import DelayedPayout.WholeNumber
