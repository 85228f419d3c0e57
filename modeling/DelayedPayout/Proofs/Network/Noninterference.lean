import DelayedPayout.Proofs.Network.Effects

/-!
Who can make a difference to a party. Its answers depend on the requests to it and on the heights that are
notified to parties with its chain tip, and its counters on the requests to the parties that share them or
a tip with one that does. All other requests can be left out of a run, and the party does not see it
(`Network.noninterference`). The proof compares the run with the shorter one, request by request
(`Network.observed_filter`): the two stay alike for a group of parties (`Network.Alike`), whether a
request is made in both or is hidden from the group and made in one only.
-/

namespace DelayedPayout

def Request.isAdvance : Request → Bool
  | .advance _ => true
  | _ => false

def Request.isExposition : Request → Bool
  | .exposition => true
  | _ => false

theorem Request.notified_of_not_isAdvance {request : Request} (h : request.isAdvance = false) :
    request.notified = none := by
  cases request with
  | advance height => cases h
  | _ => rfl

namespace Network

variable {tips meters parties : Nat}

/-! ## What is seen of a run -/

/-- What is observed of the answers in a run, each taken with its request and the network after it. -/
def observed {β : Type} (net : Network tips meters parties)
    (observe : Fin parties × Request → Except Fault Reply × Network tips meters parties → Option β)
    (history : List (Fin parties × Request)) : List β :=
  (history.zip (net.run history)).filterMap fun entry => observe entry.1 entry.2

/-- The answers to a party, other than the texts of its counters. -/
def repliesTo (net : Network tips meters parties) (i : Fin parties) :
    List (Fin parties × Request) → List (Except Fault Reply) :=
  net.observed fun request answer =>
    if request.1 = i ∧ request.2.isExposition = false then some answer.1 else none

def metersSeenBy (net : Network tips meters parties) (i : Fin parties) :
    List (Fin parties × Request) → List Meter :=
  net.observed fun request answer => if request.1 = i then some (answer.2.meterOf i) else none

theorem observed_cons {β : Type} (net : Network tips meters parties)
    (observe : Fin parties × Request → Except Fault Reply × Network tips meters parties → Option β)
    (j : Fin parties) (request : Request) (history : List (Fin parties × Request)) :
    net.observed observe ((j, request) :: history) =
      (observe (j, request) (net.step j request)).toList ++
        (net.step j request).2.observed observe history := by
  rw [observed, run, List.zip_cons_cons, List.filterMap_cons]
  cases observe (j, request) (net.step j request) <;> rfl

/-- Requests can be left out of a run, and what is observed stays the same, if some relation between the
two networks is kept by the requests that stay, with the same observation, and by those that are left
out, with none. -/
theorem observed_filter {β : Type} {keep : Fin parties × Request → Bool}
    {observe : Fin parties × Request → Except Fault Reply × Network tips meters parties → Option β}
    (related : Network tips meters parties → Network tips meters parties → Prop)
    (hkept : ∀ {net net'} j request, related net net' → keep (j, request) = true →
      related (net.step j request).2 (net'.step j request).2 ∧
        observe (j, request) (net.step j request) = observe (j, request) (net'.step j request))
    (hleft : ∀ {net net'} j request, related net net' → keep (j, request) = false →
      related (net.step j request).2 net' ∧ observe (j, request) (net.step j request) = none)
    {net net' : Network tips meters parties} (h : related net net')
    (history : List (Fin parties × Request)) :
    net.observed observe history = net'.observed observe (history.filter keep) := by
  induction history generalizing net net' with
  | nil => rfl
  | cons entry history ih =>
    obtain ⟨j, request⟩ := entry
    rw [observed_cons]
    cases hkeep : keep (j, request) with
    | true =>
      obtain ⟨hrelated, hsame⟩ := hkept j request h hkeep
      rw [List.filter_cons_of_pos hkeep, observed_cons, hsame, ih hrelated]
    | false =>
      obtain ⟨hrelated, hnone⟩ := hleft j request h hkeep
      rw [List.filter_cons_of_neg (by simp [hkeep]), hnone, ih hrelated]
      rfl

/-! ## Networks that a group cannot tell apart -/

/-- Two states of a network with these parties, alike for a group of them: each has the same chain tip
and the same candidates in both. -/
structure Alike (party : Vector (Party tips meters) parties) (group : Fin parties → Prop)
    (net net' : Network tips meters parties) : Prop where
  party_left : net.party = party
  party_right : net'.party = party
  tipOf_eq : ∀ k, group k → net.tipOf k = net'.tipOf k
  registerOf_eq : ∀ k, group k → net.registerOf k = net'.registerOf k

/-- A request is hidden from a group: it is not to one of them, and no height is notified to a party that
shares a chain tip with one of them. -/
def Hidden (party : Vector (Party tips meters) parties) (group : Fin parties → Prop)
    (j : Fin parties) (request : Request) : Prop :=
  ¬group j ∧ (request.notified = none ∨ ∀ k, group k → (party.get j).tip ≠ (party.get k).tip)

namespace Alike

variable {party : Vector (Party tips meters) parties} {group : Fin parties → Prop}
  {net net' : Network tips meters parties} {i j : Fin parties} {request : Request}

theorem refl (net : Network tips meters parties) (group : Fin parties → Prop) :
    Alike net.party group net net :=
  ⟨rfl, rfl, fun _ _ => rfl, fun _ _ => rfl⟩

variable (h : Alike party group net net')

include h

/-- A request that is made in both keeps them alike, whoever it is to. -/
theorem step (j : Fin parties) (request : Request) :
    Alike party group (net.step j request).2 (net'.step j request).2 where
  party_left := (net.step_party j request).trans h.party_left
  party_right := (net'.step_party j request).trans h.party_right
  tipOf_eq := by
    intro k hk
    rw [tipOf_step, tipOf_step, h.party_left, h.party_right, h.tipOf_eq k hk]
  registerOf_eq := by
    intro k hk
    rw [registerOf_step, registerOf_step, h.registerOf_eq k hk]

/-- A hidden request that is made in one only keeps them alike. -/
theorem step_hidden (hidden : Hidden party group j request) :
    Alike party group (net.step j request).2 net' where
  party_left := (net.step_party j request).trans h.party_left
  party_right := h.party_right
  tipOf_eq := by
    intro k hk
    rw [tipOf_step, h.party_left, ← h.tipOf_eq k hk]
    rcases hidden.2 with hnone | hne
    · rw [ChainTip.heed_of_notified_eq_none hnone, ite_self]
    · rw [if_neg (hne k hk)]
  registerOf_eq := by
    intro k hk
    have hne : j ≠ k := fun heq => hidden.1 (heq ▸ hk)
    rw [registerOf_step, if_neg hne, h.registerOf_eq k hk]

/-! ### What the group gets to know -/

theorem paramsOf_eq (i : Fin parties) : net.paramsOf i = net'.paramsOf i := by
  rw [paramsOf, paramsOf, h.party_left, h.party_right]

theorem ledgerOf_eq (i : Fin parties) : net.ledgerOf i = net'.ledgerOf i := by
  rw [ledgerOf, ledgerOf, h.party_left, h.party_right]

theorem payout_eq (hi : group i) (trade : Trade) : net.payout i trade = net'.payout i trade := by
  rw [Network.payout_eq, Network.payout_eq, h.paramsOf_eq, h.ledgerOf_eq, h.registerOf_eq i hi]

theorem selectionHeight_eq (hi : group i) : net.selectionHeight i = net'.selectionHeight i := by
  rw [Network.selectionHeight_eq, Network.selectionHeight_eq, h.paramsOf_eq, h.ledgerOf_eq,
    h.tipOf_eq i hi]

/-- The group gets the same answers, apart from counters. -/
theorem reply_eq (hi : group i) (he : request.isExposition = false) :
    (net.step i request).1 = (net'.step i request).1 := by
  cases request with
  | advance height =>
    simp only [Network.step, h.tipOf_eq i hi]
    split <;> rfl
  | selectionHeight => simp only [Network.step, h.selectionHeight_eq hi]
  | acceptable peer => simp only [Network.step, h.selectionHeight_eq hi, h.paramsOf_eq]
  | require peer =>
    simp only [Network.step, h.selectionHeight_eq hi, h.paramsOf_eq]
    split
    · rfl
    · split
      · rfl
      · split <;> rfl
  | payout trade | receivers trade =>
    simp only [Network.step, compute, h.payout_eq hi]
    split <;> rfl
  | verify trade outputs =>
    simp only [Network.step, compute, h.payout_eq hi]
    split
    · rfl
    · split <;> rfl
  | register height candidates =>
    simp only [Network.step, h.registerOf_eq i hi]
    split <;> rfl
  | reset => rfl
  | exposition => cases he

/-- With the same counters, a request to the group is entered alike. -/
theorem entry_eq (hi : group i) (hm : net.meterOf i = net'.meterOf i) (request : Request) :
    net.entry i request = net'.entry i request := by
  have hcomputed : net.computed i request = net'.computed i request := by
    simp only [computed, h.payout_eq hi]
  have hreply : (net.step i request).1 = (net'.step i request).1 := by
    cases he : request.isExposition with
    | false => exact h.reply_eq hi he
    | true =>
      cases request with
      | exposition => simp only [Network.step, hm]
      | _ => cases he
  rw [entry, entry, hcomputed, hreply]

end Alike

/-! ## Noninterference -/

/-- A request that the answers to a party may depend on: it is to the party, or it notifies a height to
one that shares its chain tip. -/
def ReachesAnswers (net : Network tips meters parties) (i : Fin parties)
    (request : Fin parties × Request) : Prop :=
  request.1 = i ∨
    request.2.isAdvance = true ∧ (net.party.get request.1).tip = (net.party.get i).tip

instance (net : Network tips meters parties) (i : Fin parties) :
    DecidablePred (net.ReachesAnswers i) := fun request =>
  inferInstanceAs (Decidable (request.1 = i ∨ _ ∧ _))

/-- A party whose requests the counters of another may depend on: the two share counters or a chain tip,
or it shares a chain tip with a party that uses those counters. -/
def ReachesCounters (net : Network tips meters parties) (i j : Fin parties) : Prop :=
  (net.party.get j).meter = (net.party.get i).meter ∨
    (net.party.get j).tip = (net.party.get i).tip ∨
    ∃ k, (net.party.get k).meter = (net.party.get i).meter ∧
      (net.party.get j).tip = (net.party.get k).tip

instance (net : Network tips meters parties) (i : Fin parties) :
    DecidablePred (net.ReachesCounters i) := fun j =>
  inferInstanceAs (Decidable (_ ∨ _ ∨ ∃ k, (net.party.get k).meter = (net.party.get i).meter ∧
    (net.party.get j).tip = (net.party.get k).tip))

theorem repliesTo_filter (net : Network tips meters parties) (i : Fin parties)
    (history : List (Fin parties × Request)) :
    net.repliesTo i history = net.repliesTo i (history.filter (net.ReachesAnswers i)) := by
  refine observed_filter (Alike net.party (· = i)) ?_ ?_ (.refl net _) history
  · intro net₁ net₂ j request h _
    refine ⟨h.step j request, ?_⟩
    by_cases hj : j = i ∧ request.isExposition = false
    · simp only [hj, and_self, ↓reduceIte, h.reply_eq rfl hj.2]
    · simp only [hj, ↓reduceIte]
  · intro net₁ net₂ j request h hkeep
    have hnot : ¬net.ReachesAnswers i (j, request) := of_decide_eq_false hkeep
    have hj : ¬j = i := fun hj => hnot (.inl hj)
    refine ⟨h.step_hidden ⟨hj, ?_⟩, if_neg fun hi => hj hi.1⟩
    cases ha : request.isAdvance with
    | false => exact .inl (Request.notified_of_not_isAdvance ha)
    | true =>
      right
      rintro k rfl htip
      exact hnot (.inr ⟨ha, htip⟩)

theorem meterOf_congr {net : Network tips meters parties} {i j : Fin parties}
    (h : (net.party.get j).meter = (net.party.get i).meter) : net.meterOf j = net.meterOf i :=
  congrArg net.meter.get h

theorem metersSeenBy_filter (net : Network tips meters parties) (i : Fin parties)
    (history : List (Fin parties × Request)) :
    net.metersSeenBy i history =
      net.metersSeenBy i (history.filter fun request => net.ReachesCounters i request.1) := by
  -- the group uses the counters; they are the same in both networks too
  refine observed_filter (fun net₁ net₂ =>
    Alike net.party (fun k => (net.party.get k).meter = (net.party.get i).meter) net₁ net₂ ∧
      net₁.meterOf i = net₂.meterOf i) ?_ ?_ ⟨.refl net _, rfl⟩ history
  · rintro net₁ net₂ j request ⟨h, hm⟩ _
    have hmeter : (net₁.step j request).2.meterOf i = (net₂.step j request).2.meterOf i := by
      rw [meterOf_step, meterOf_step, h.party_left, h.party_right, hm]
      by_cases hj : (net.party.get j).meter = (net.party.get i).meter
      · have hleft : net₁.meterOf j = net₁.meterOf i := meterOf_congr (h.party_left ▸ hj)
        have hright : net₂.meterOf j = net₂.meterOf i := meterOf_congr (h.party_right ▸ hj)
        rw [h.entry_eq hj (by rw [hleft, hright, hm])]
      · rw [if_neg hj, if_neg hj]
    exact ⟨⟨h.step j request, hmeter⟩, by rw [hmeter]⟩
  · rintro net₁ net₂ j request ⟨h, hm⟩ hkeep
    have hnot : ¬net.ReachesCounters i j := of_decide_eq_false hkeep
    have hj : (net.party.get j).meter ≠ (net.party.get i).meter := fun hj => hnot (.inl hj)
    refine ⟨⟨h.step_hidden ⟨hj, ?_⟩, ?_⟩, ?_⟩
    · right
      intro k hk htip
      exact hnot (.inr (.inr ⟨k, hk, htip⟩))
    · rw [meterOf_step, h.party_left, if_neg hj, hm]
    · exact if_neg fun hi => hj (congrArg (fun k => (net.party.get k).meter) hi)

/-- **Noninterference.** The answers to a party are those it gets when the run is cut down to the requests
to it and to the heights notified to parties with its chain tip; and its counters are, after each request
to it, those of the run cut down to the parties that share its counters or its chain tip, or a chain tip
with a party that uses its counters. -/
theorem noninterference (net : Network tips meters parties)
    (history : List (Fin parties × Request)) (i : Fin parties) :
    net.repliesTo i history = net.repliesTo i (history.filter (net.ReachesAnswers i)) ∧
      net.metersSeenBy i history =
        net.metersSeenBy i (history.filter fun request => net.ReachesCounters i request.1) :=
  ⟨net.repliesTo_filter i history, net.metersSeenBy_filter i history⟩

end Network

end DelayedPayout
