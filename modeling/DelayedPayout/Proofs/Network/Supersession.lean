import Mathlib.Data.List.Induction
import DelayedPayout.Proofs.Network.Effects
import DelayedPayout.Proofs.Register.Registration
import DelayedPayout.Proofs.Trade.Balance

/-!
How long the candidates for a height stay the same. A height is registered once, but a set that comes
later for a lower height replaces what applied in between: it supersedes the candidates at every height
up to the next set (`Register.inForceAt_heed_register`). So the candidates for a height are fixed, and
with them the payouts, exactly as long as what supersedes them is the same set again
(`Network.candidates_fixed_iff`).
-/

namespace DelayedPayout

/-! ## One registration -/

namespace Register

variable {register : Register} {start height : Int}

/-- A set for `start` comes to apply at `height`: there is none for `start` yet, and no later set is up to
there. -/
def Supersedes (register : Register) (start height : Int) : Prop :=
  register.sets.isSetAt start = false ∧ register.sets.Reaches start height

instance : Decidable (register.Supersedes start height) :=
  inferInstanceAs (Decidable (_ ∧ _))

theorem inForceAt_heed_register (candidates : CandidateSet) :
    (register.heed (.register start candidates)).inForceAt height =
      if register.Supersedes start height then candidates else register.inForceAt height := by
  rw [heed]
  cases h : register.sets.isSetAt start with
  | true =>
    have hnot : ¬register.Supersedes start height := fun hs => by simp [hs.1] at h
    rw [if_pos rfl, if_neg hnot]
  | false =>
    have hiff : register.Supersedes start height ↔ register.sets.Reaches start height :=
      and_iff_right h
    simp only [Bool.false_eq_true, ↓reduceIte, hiff]
    exact inForceAt_of_add (add_of_not_isSetAt candidates h)

end Register

/-- A payout depends on the candidates at the selection height only. -/
theorem Trade.payout_congr {trade : Trade} {params : Params} {ledger : Ledger}
    {register register' : Register}
    (h : register.inForceAt trade.selectionHeight = register'.inForceAt trade.selectionHeight) :
    trade.payout params ledger register = trade.payout params ledger register' := by
  unfold payout
  rw [h]

namespace Network

variable {tips meters parties : Nat} {net : Network tips meters parties} {i : Fin parties}

/-! ## Runs -/

/-- A request leaves the candidates for a height alone, or it is a registration that supersedes them. -/
theorem inForceAt_step (net : Network tips meters parties) (i j : Fin parties) (request : Request)
    (height : Int) :
    ((net.step j request).2.registerOf i).inForceAt height =
        (net.registerOf i).inForceAt height ∨
      ∃ start candidates, (j, request) = (i, .register start candidates) ∧
        (net.registerOf i).Supersedes start height ∧
        ((net.step j request).2.registerOf i).inForceAt height = candidates := by
  rw [registerOf_step]
  by_cases hj : j = i
  · rw [if_pos hj]
    cases request with
    | register start candidates =>
      rw [Register.inForceAt_heed_register]
      by_cases h : (net.registerOf i).Supersedes start height
      · exact .inr ⟨start, candidates, by rw [hj], h, if_pos h⟩
      · exact .inl (if_neg h)
    | _ => exact .inl rfl
  · exact .inl (by rw [if_neg hj])

/-- As long as what supersedes the candidates for a height is the same set again, they stay. -/
theorem inForceAt_after_of_same {history : List (Fin parties × Request)} {height : Int}
    (hsame : ∀ earlier start candidates later,
      history = earlier ++ (i, .register start candidates) :: later →
      ((net.after earlier).registerOf i).Supersedes start height →
      candidates = ((net.after earlier).registerOf i).inForceAt height)
    (earlier : List (Fin parties × Request)) (hearlier : earlier <+: history) :
    ((net.after earlier).registerOf i).inForceAt height = (net.registerOf i).inForceAt height := by
  induction earlier using List.reverseRecOn with
  | nil => rfl
  | append_singleton earlier entry ih =>
    obtain ⟨j, request⟩ := entry
    have hbefore := ih ((List.prefix_append _ _).trans hearlier)
    obtain ⟨later, rfl⟩ := hearlier
    rw [after_concat]
    rcases (net.after earlier).inForceAt_step i j request height with
      hstep | ⟨start, candidates, hentry, hsupersedes, hstep⟩
    · rw [hstep, hbefore]
    · rw [hstep, ← hbefore]
      refine hsame earlier start candidates later ?_ hsupersedes
      rw [hentry, List.append_assoc, List.singleton_append]

/-- **The candidates for a height are fixed iff none supersede them.** They are the same at all points of
a run exactly if every registration that comes to apply at the height is of the set that applies there
already; and while they are, so is the payout of every trade at the height. -/
theorem candidates_fixed_iff (net : Network tips meters parties)
    (history : List (Fin parties × Request)) (i : Fin parties) (height : Int) :
    ((∀ earlier, earlier <+: history →
        ((net.after earlier).registerOf i).inForceAt height = (net.registerOf i).inForceAt height) ↔
      ∀ earlier start candidates later,
        history = earlier ++ (i, .register start candidates) :: later →
        ((net.after earlier).registerOf i).Supersedes start height →
        candidates = ((net.after earlier).registerOf i).inForceAt height) ∧
    ((∀ earlier, earlier <+: history →
        ((net.after earlier).registerOf i).inForceAt height = (net.registerOf i).inForceAt height) →
      ∀ trade earlier, trade.selectionHeight = height → earlier <+: history →
        net.answer earlier i (.payout trade) = net.answer [] i (.payout trade)) := by
  refine ⟨⟨?_, inForceAt_after_of_same⟩, ?_⟩
  · rintro hfixed earlier start candidates later rfl hsupersedes
    have hbefore := hfixed earlier (List.prefix_append _ _)
    have hafter := hfixed (earlier ++ [(i, .register start candidates)])
      ⟨later, by rw [List.append_assoc, List.singleton_append]⟩
    rw [after_concat, registerOf_step, if_pos rfl, Register.inForceAt_heed_register,
      if_pos hsupersedes] at hafter
    rw [hafter, hbefore]
  · rintro hfixed trade earlier rfl hearlier
    rw [answer_payout_eq, answer_payout_eq, Trade.payout_congr (hfixed earlier hearlier)]
    rfl

/-- A set that is registered for a height below replaces the candidates at 100: two halves are paid
before, and the fallback address gets everything after. -/
theorem candidates_replaced_from_below :
    (((solo halves).registerOf 0).inForceAt 100).values = halves ∧
      (solo halves).answer [] 0 (.register 50 .empty) = .ok .done ∧
      ((((solo halves).after [(0, .register 50 .empty)]).registerOf 0).inForceAt 100).values = [] ∧
      (solo halves).answer [] 0 (.payout (cheapTrade 101151)) = .ok (.payout unevenHalves) ∧
      (solo halves).answer [(0, .register 50 .empty)] 0 (.payout (cheapTrade 101151)) =
        .ok (.payout (.wholeTo "fallback" 101151)) := by
  refine ⟨rfl, ?_, ?_, ?_, ?_⟩ <;> decide +kernel

end Network

end DelayedPayout
