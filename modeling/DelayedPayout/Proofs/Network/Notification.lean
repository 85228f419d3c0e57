import DelayedPayout.Proofs.Network.Effects
import DelayedPayout.Proofs.Network.Tally

/-!
Chain tips and the selection heights that follow them. A tip stands at the last height that was notified
to a party that shares it, and has counted those notifications (`Network.tip_get_after`); so there always
is a selection height to hold a peer's against, and it does not depend on what was refused in between. A
peer's height that is not accepted is refused as such unless one of the two heights cannot be written
(`Network.selection_follows_notifications`).
-/

namespace DelayedPayout

open Number

/-! ## Tips before a run -/

theorem getElem_of_mapM_eq_ok {α β ε : Type} {n : Nat} {f : α → Except ε β} {xs : Vector α n}
    {out : Vector β n} (h : xs.mapM f = .ok out) (k : Nat) (hk : k < n) : f xs[k] = .ok out[k] := by
  have hlist : xs.toList.mapM f = .ok out.toList := by
    have harray : xs.toArray.mapM f = .ok out.toArray := by
      rw [← Vector.toArray_mapM, h]
      rfl
    rw [Vector.toList, ← Array.toList_mapM, harray]
    rfl
  have hall := (List.forall₂_iff_get.mp (mapM_eq_ok_iff.mp hlist)).2
  simpa using hall k (by simpa using hk) (by simpa using hk)

theorem ChainTip.start_eq_ok {height : Int} {tip : ChainTip} (h : ChainTip.start height = .ok tip) :
    0 ≤ height ∧ tip = ⟨height.toNat, 0⟩ := by
  unfold ChainTip.start at h
  split at h
  · cases h
  · cases h
    exact ⟨by omega, rfl⟩

namespace Network

variable {tips meters parties : Nat}

/-- The heights at which tips start: those given for the shared ones, and zero for one that a party has
for itself. -/
def initialHeights {sharedTips : Nat} (heights : Vector Int sharedTips) (parties : Nat) :
    Vector Int (sharedTips + parties) :=
  heights ++ Vector.replicate parties (0 : Int)

theorem tip_get_of_build {sharedTips sharedMeters : Nat} {heights : Vector Int sharedTips}
    {setups : Vector (Setup sharedTips sharedMeters) parties}
    {net : Network (sharedTips + parties) (sharedMeters + parties) parties}
    (h : build heights setups = .ok net) (t : Fin (sharedTips + parties)) :
    0 ≤ (initialHeights heights parties).get t ∧
      net.tip.get t = ⟨((initialHeights heights parties).get t).toNat, 0⟩ := by
  obtain ⟨started, _, hstart, _, rfl⟩ := build_eq_ok h
  show 0 ≤ (heights ++ Vector.replicate parties (0 : Int))[(t : Nat)] ∧
    (started ++ Vector.replicate parties ChainTip.origin)[(t : Nat)] =
      ⟨(heights ++ Vector.replicate parties (0 : Int))[(t : Nat)].toNat, 0⟩
  simp only [Vector.getElem_append]
  -- a shared tip, or that of a party
  by_cases ht : (t : Nat) < sharedTips
  · simp only [dif_pos ht]
    exact ChainTip.start_eq_ok (getElem_of_mapM_eq_ok hstart t ht)
  · simp [dif_neg ht, ChainTip.origin]

/-! ## Tips after a run -/

/-- The heights that are notified to parties with a tip, in turn. -/
def notifiedTo (net : Network tips meters parties) (t : Fin tips)
    (history : List (Fin parties × Request)) : List Int :=
  history.filterMap fun entry =>
    if (net.party.get entry.1).tip = t then entry.2.notified else none

theorem notifiedTo_concat (net : Network tips meters parties) (t : Fin tips)
    (history : List (Fin parties × Request)) (i : Fin parties) (request : Request) :
    net.notifiedTo t (history ++ [(i, request)]) = net.notifiedTo t history ++
      if (net.party.get i).tip = t then request.notified.toList else [] := by
  rw [notifiedTo, List.filterMap_append, ← notifiedTo]
  by_cases h : (net.party.get i).tip = t
  · cases hn : request.notified <;> simp [h, hn]
  · simp [h]

theorem nonneg_of_notified {request : Request} {height : Int} (h : request.notified = some height) :
    0 ≤ height := by
  cases request with
  | advance height' =>
    rw [Request.notified] at h
    split at h
    · cases h
    · cases h
      omega
  | _ => cases h

/-- A tip stands at the last height that was notified, and counts the notifications. -/
theorem tip_get_after (net : Network tips meters parties) (history : List (Fin parties × Request))
    (t : Fin tips) :
    (net.after history).tip.get t =
      ⟨((net.notifiedTo t history).getLast?.map Int.toNat).getD (net.tip.get t).height,
        (net.tip.get t).updates + (net.notifiedTo t history).length⟩ := by
  induction history using List.reverseRecOn with
  | nil => rfl
  | append_singleton history entry ih =>
    obtain ⟨i, request⟩ := entry
    rw [after_concat, tip_get_step, after_party, ih, notifiedTo_concat]
    by_cases h : (net.party.get i).tip = t
    · rw [if_pos h, if_pos h, ChainTip.heed]
      cases request.notified with
      | none => simp
      | some height => simp [Nat.add_assoc]
    · simp [h]

theorem nonneg_of_mem_notifiedTo {net : Network tips meters parties} {t : Fin tips}
    {history : List (Fin parties × Request)} {height : Int}
    (h : height ∈ net.notifiedTo t history) : 0 ≤ height := by
  obtain ⟨entry, _, hentry⟩ := List.mem_filterMap.mp h
  split at hentry
  · exact nonneg_of_notified hentry
  · cases hentry

/-! ## Selection heights -/

/-- **Selection heights follow the notifications.** In every network that is built, and after any run, a
tip stands at the last height that was notified to a party that shares it, or at its initial height, and
has counted the notifications. From it each party has a selection height, and holds any peer's height
against that one; what it does not accept it refuses, and as a mismatch of the two heights exactly if
both can be written. -/
theorem selection_follows_notifications {sharedTips sharedMeters : Nat}
    {heights : Vector Int sharedTips} {setups : Vector (Setup sharedTips sharedMeters) parties}
    {net : Network (sharedTips + parties) (sharedMeters + parties) parties}
    (h : build heights setups = .ok net) (history : List (Fin parties × Request)) :
    (∀ t, (((net.after history).tip.get t).height : Int) =
          (net.notifiedTo t history).getLast?.getD ((initialHeights heights parties).get t) ∧
        ((net.after history).tip.get t).updates = (net.notifiedTo t history).length) ∧
      ∀ i, ∃ ours,
        gridHeight (net.ledgerOf i).genesis ((net.after history).tip.get (net.party.get i).tip).height
          (net.paramsOf i).snapshotGrid = .ok ours ∧
        net.answer history i .selectionHeight = .ok (.height ours) ∧
        ∀ peer, ∃ verdict, net.answer history i (.acceptable peer) = .ok (.verdict verdict) ∧
          ((net.answer history i (.require peer) =
              if verdict then .ok .done else .error (.selectionHeightMismatch ours peer)) ↔
            verdict = true ∨ Writable ours ∧ Writable peer) ∧
          (verdict = false → ¬(Writable ours ∧ Writable peer) →
            net.answer history i (.require peer) = .error .tooManyDigits) := by
  constructor
  · intro t
    obtain ⟨hinitial, htip⟩ := tip_get_of_build h t
    rw [tip_get_after, htip]
    refine ⟨?_, Nat.zero_add _⟩
    cases hlast : (net.notifiedTo t history).getLast? with
    | none => exact Int.toNat_of_nonneg hinitial
    | some height => exact Int.toNat_of_nonneg (nonneg_of_mem_notifiedTo (List.mem_of_getLast? hlast))
  · intro i
    obtain ⟨ours, hours, _⟩ := net.selectionHeight_after history i
    refine ⟨ours, ?_, answer_selectionHeight hours, fun peer => ?_⟩
    · rw [selectionHeight_eq, paramsOf_after, ledgerOf_after] at hours
      rw [← after_party history]
      exact hours
    · refine ⟨_, answer_acceptable hours peer, ?_⟩
      rw [answer_require hours]
      cases (net.paramsOf i).accepts ours peer with
      | true => simp
      | false => by_cases hw : Writable ours ∧ Writable peer <;> simp [hw]

/-- The second party follows the tip that it shares with the first. -/
theorem selection_follows_pool :
    ∃ net, pool = .ok net ∧
      ((net.after (poolHistory 0 1)).tip.get 0).height = 130 ∧
      ((net.after (poolHistory 0 1)).tip.get 0).updates = 2 ∧
      net.answer (poolHistory 0 1) 1 .selectionHeight = .ok (.height 120) := by
  have hread : (pool.map fun net => (net.notifiedTo 0 (poolHistory 0 1), (net.party.get 1).tip,
      (net.ledgerOf 1).genesis, (net.paramsOf 1).snapshotGrid)) = .ok ([120, 130], 0, 0, 10) := by
    decide +kernel
  cases hpool : pool with
  | error fault =>
    rw [hpool] at hread
    cases hread
  | ok net =>
    rw [hpool] at hread
    simp only [Except.map, Except.ok.injEq, Prod.mk.injEq] at hread
    obtain ⟨hnotified, htip, hgenesis, hgrid⟩ := hread
    obtain ⟨htips, hselection⟩ := selection_follows_notifications hpool (poolHistory 0 1)
    obtain ⟨hheight, hupdates⟩ := htips 0
    obtain ⟨ours, hours, hanswer, _⟩ := hselection 1
    rw [hnotified] at hheight hupdates
    have hheight : ((net.after (poolHistory 0 1)).tip.get 0).height = 130 := Int.ofNat.inj hheight
    rw [htip, hgenesis, hgrid, hheight] at hours
    cases hours
    exact ⟨net, rfl, hheight, hupdates, hanswer⟩

/-- A party whose selection height has a digit more than can be written. -/
def wideSetup : Setup 0 0 where
  params := fun p => .int (if p = .snapshotGrid then 5 * Nat.pow 10 4299 else p.standard)
  genesis := 0
  fallbacks := [(0, some "fallback")]
  candidates := []
  tip := none
  meter := none

def wide : Except Fault (Network 1 1 1) := build #v[] #v[wideSetup]

/-- A height that is not acceptable is refused, but not as a mismatch. -/
theorem unwritable_mismatch :
    (wide.map fun net => (net.answer [] 0 .selectionHeight, net.answer [] 0 (.acceptable 5),
        net.answer [] 0 (.require 5))) =
      .ok (.ok (.height (Nat.pow 10 4300)), .ok (.verdict false), .error .tooManyDigits) := by
  decide +kernel

end Network

end DelayedPayout
