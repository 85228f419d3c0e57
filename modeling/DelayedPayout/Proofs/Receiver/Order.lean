import DelayedPayout.Payout.Trim
import Mathlib.Data.List.Sort
import Mathlib.Data.String.Basic

/-!
The order of outputs. It is linear, so the outputs of a transaction stand in one way only:
`sort_eq_of_perm` says that sorting forgets where they stood before, and `reverse_insertDescending`
that putting an output back from the largest end is sorting it in.
-/

namespace DelayedPayout.Receiver

/-! ## The order -/

theorem le_iff {a b : Receiver} :
    le a b = true ↔ a.amount < b.amount ∨ a.amount = b.amount ∧ a.address ≤ b.address := by
  simp only [le, Bool.or_eq_true, Bool.and_eq_true, decide_eq_true_eq, beq_iff_eq,
    Bool.not_eq_true', decide_eq_false_iff_not, not_lt]

protected theorem le_total (a b : Receiver) : le a b = true ∨ le b a = true := by
  rw [le_iff, le_iff]
  rcases lt_trichotomy a.amount b.amount with h | h | h
  · exact Or.inl (Or.inl h)
  · rcases le_total a.address b.address with ha | ha
    · exact Or.inl (Or.inr ⟨h, ha⟩)
    · exact Or.inr (Or.inr ⟨h.symm, ha⟩)
  · exact Or.inr (Or.inl h)

protected theorem le_trans {a b c : Receiver} (hab : le a b = true) (hbc : le b c = true) :
    le a c = true := by
  rw [le_iff] at hab hbc ⊢
  rcases hab with h | ⟨h, ha⟩
  · left
    rcases hbc with h' | ⟨h', _⟩ <;> omega
  · rcases hbc with h' | ⟨h', hb⟩
    · left; omega
    · exact Or.inr ⟨by omega, le_trans ha hb⟩

protected theorem le_antisymm {a b : Receiver} (hab : le a b = true) (hba : le b a = true) :
    a = b := by
  cases a with
  | mk m s =>
    cases b with
    | mk n t =>
      rw [le_iff] at hab hba
      simp only at hab hba
      have hm : m = n := by omega
      subst hm
      have hs : s ≤ t := hab.resolve_left (lt_irrefl m) |>.2
      have ht : t ≤ s := hba.resolve_left (lt_irrefl m) |>.2
      rw [le_antisymm hs ht]

instance : Std.Total (fun a b : Receiver => le a b = true) := ⟨Receiver.le_total⟩

instance : IsTrans Receiver (fun a b => le a b = true) := ⟨fun _ _ _ => Receiver.le_trans⟩

instance : Std.Antisymm (fun a b : Receiver => le a b = true) :=
  ⟨fun _ _ => Receiver.le_antisymm⟩

def Ordered (l : List Receiver) : Prop := l.Pairwise fun a b => le a b = true

/-! ## Sorting -/

theorem insert_eq_orderedInsert (r : Receiver) (l : List Receiver) :
    insert r l = l.orderedInsert (fun a b => le a b = true) r := by
  induction l with
  | nil => rfl
  | cons s l ih => simp only [insert, List.orderedInsert_cons, ih]

theorem sort_eq_insertionSort (l : List Receiver) :
    sort l = l.insertionSort fun a b => le a b = true := by
  induction l with
  | nil => rfl
  | cons r l ih =>
    rw [List.insertionSort_cons, ← ih, ← insert_eq_orderedInsert]
    rfl

theorem sort_perm (l : List Receiver) : (sort l).Perm l := by
  rw [sort_eq_insertionSort]
  exact List.perm_insertionSort _ l

theorem ordered_sort (l : List Receiver) : Ordered (sort l) := by
  rw [sort_eq_insertionSort]
  exact List.pairwise_insertionSort _ l

theorem Ordered.eq_of_perm {l l' : List Receiver} (hl : Ordered l) (hl' : Ordered l')
    (h : l.Perm l') : l = l' := h.eq_of_pairwise' hl hl'

theorem sort_eq_of_perm {l l' : List Receiver} (h : l.Perm l') : sort l = sort l' :=
  (ordered_sort l).eq_of_perm (ordered_sort l') ((sort_perm l).trans (h.trans (sort_perm l').symm))

theorem mem_sort {r : Receiver} {l : List Receiver} : r ∈ sort l ↔ r ∈ l := (sort_perm l).mem_iff

/-! ## From the largest down -/

theorem insertDescending_perm (r : Receiver) (l : List Receiver) :
    (insertDescending r l).Perm (r :: l) := by
  induction l with
  | nil => exact List.Perm.refl _
  | cons s l ih =>
    rw [insertDescending]
    split
    · exact List.Perm.refl _
    · exact (ih.cons s).trans (List.Perm.swap r s l)

theorem insertDescending_pairwise (r : Receiver) {l : List Receiver}
    (h : l.Pairwise fun a b => le b a = true) :
    (insertDescending r l).Pairwise fun a b => le b a = true := by
  induction l with
  | nil => exact List.pairwise_singleton _ _
  | cons s l ih =>
    obtain ⟨hs, hl⟩ := List.pairwise_cons.mp h
    by_cases hsr : le s r = true
    · rw [insertDescending, if_pos hsr]
      refine List.pairwise_cons.mpr ⟨?_, h⟩
      intro t ht
      rcases List.mem_cons.mp ht with rfl | ht
      · exact hsr
      · exact Receiver.le_trans (hs t ht) hsr
    · rw [insertDescending, if_neg hsr]
      refine List.pairwise_cons.mpr ⟨?_, ih hl⟩
      intro t ht
      rcases List.mem_cons.mp ((insertDescending_perm r l).mem_iff.mp ht) with rfl | ht
      · exact (Receiver.le_total s t).resolve_left hsr
      · exact hs t ht

/-- Putting an output back among outputs that descend is sorting it in. -/
theorem reverse_insertDescending (r : Receiver) {l : List Receiver} (h : Ordered l) :
    (insertDescending r l.reverse).reverse = sort (l ++ [r]) := by
  have hd : l.reverse.Pairwise fun a b => le b a = true := List.pairwise_reverse.mpr h
  have ho : Ordered (insertDescending r l.reverse).reverse :=
    List.pairwise_reverse.mpr (insertDescending_pairwise r hd)
  have hp : (insertDescending r l.reverse).reverse.Perm (l ++ [r]) := by
    apply (List.reverse_perm _).trans
    apply (insertDescending_perm r l.reverse).trans
    exact ((List.reverse_perm l).cons r).trans (List.perm_append_singleton r l).symm
  exact ho.eq_of_perm (ordered_sort _) (hp.trans (sort_perm _).symm)

/-! ## Totals -/

@[simp] theorem total_nil : total [] = 0 := rfl

@[simp] theorem total_cons (r : Receiver) (l : List Receiver) :
    total (r :: l) = r.amount + total l := rfl

@[simp] theorem total_append (l l' : List Receiver) : total (l ++ l') = total l + total l' := by
  induction l with
  | nil => simp
  | cons r l ih => rw [List.cons_append, total_cons, ih, total_cons, Int.add_assoc]

theorem total_eq_of_perm {l l' : List Receiver} (h : l.Perm l') : total l = total l' := by
  induction h with
  | nil => rfl
  | cons r _ ih => rw [total_cons, total_cons, ih]
  | swap r s l => simp only [total_cons]; omega
  | trans _ _ ih ih' => rw [ih, ih']

@[simp] theorem total_reverse (l : List Receiver) : total l.reverse = total l :=
  total_eq_of_perm (List.reverse_perm l)

@[simp] theorem total_sort (l : List Receiver) : total (sort l) = total l :=
  total_eq_of_perm (sort_perm l)

theorem total_nonneg {l : List Receiver} (h : ∀ r ∈ l, 0 ≤ r.amount) : 0 ≤ total l := by
  induction l with
  | nil => exact Int.le_refl 0
  | cons r l ih =>
    have hr := h r List.mem_cons_self
    have hl := ih fun s hs => h s (List.mem_cons_of_mem r hs)
    rw [total_cons]
    omega

theorem le_total_of_mem {l : List Receiver} (h : ∀ r ∈ l, 0 ≤ r.amount) {r : Receiver} (hr : r ∈ l) :
    r.amount ≤ total l := by
  have hsplit := total_eq_of_perm (List.perm_cons_erase hr)
  have hrest : 0 ≤ total (l.erase r) := total_nonneg fun s hs => h s (List.mem_of_mem_erase hs)
  rw [hsplit, total_cons]
  omega

end DelayedPayout.Receiver
