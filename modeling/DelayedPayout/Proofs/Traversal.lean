import Mathlib.Data.List.Perm.Basic

/-!
Traversals that may fail. One succeeds exactly when every step does (`mapM_eq_ok_iff`), and fails at the
first step that does (`mapM_eq_error_iff`): of several grounds the first that applies gives the fault
(`FirstOf`).
-/

namespace DelayedPayout

/-! ## Steps in a row -/

/-- A traversal succeeds exactly when every step does. -/
theorem mapM_eq_ok_iff {α β ε : Type} {f : α → Except ε β} {l : List α} {out : List β} :
    l.mapM f = .ok out ↔ List.Forall₂ (fun a b => f a = .ok b) l out := by
  induction l generalizing out with
  | nil => simp [pure, Except.pure, eq_comm]
  | cons a l ih =>
    rw [List.mapM_cons, List.forall₂_cons_left_iff]
    cases ha : f a with
    | error e => simp [bind, Except.bind]
    | ok b =>
      cases hl : l.mapM f with
      | error e =>
        have hnone : ∀ out, ¬ List.Forall₂ (fun a b => f a = .ok b) l out := by
          intro out h
          rw [ih.mpr h] at hl
          cases hl
        simp [bind, Except.bind, hnone]
      | ok bs =>
        have hbs := ih.mp hl
        simp only [bind, Except.bind, pure, Except.pure, Except.ok.injEq]
        constructor
        · rintro rfl
          exact ⟨b, bs, rfl, hbs, rfl⟩
        · rintro ⟨b', bs', rfl, hbs', rfl⟩
          rw [ih.mpr hbs', Except.ok.injEq] at hl
          rw [hl]

theorem mapM_ok_of_forall {α β ε : Type} {f : α → Except ε β} {l : List α}
    (h : ∀ a ∈ l, ∃ b, f a = .ok b) : ∃ out, l.mapM f = .ok out := by
  induction l with
  | nil => exact ⟨[], rfl⟩
  | cons a l ih =>
    obtain ⟨b, hb⟩ := h a List.mem_cons_self
    obtain ⟨out, hout⟩ := ih fun a' ha' => h a' (List.mem_cons_of_mem a ha')
    exact ⟨b :: out, mapM_eq_ok_iff.mpr (.cons hb (mapM_eq_ok_iff.mp hout))⟩

theorem exists_ok_of_mem {α β ε : Type} {f : α → Except ε β} {l : List α} {out : List β} {a : α}
    (h : l.mapM f = .ok out) (ha : a ∈ l) : ∃ b, f a = .ok b := by
  have hall := mapM_eq_ok_iff.mp h
  clear h
  induction hall with
  | nil => cases ha
  | cons hb _ ih =>
    rcases List.mem_cons.mp ha with rfl | ha
    · exact ⟨_, hb⟩
    · exact ih ha

theorem bind_eq_ok_iff {α β ε : Type} {x : Except ε α} {f : α → Except ε β} {b : β} :
    x >>= f = .ok b ↔ ∃ a, x = .ok a ∧ f a = .ok b := by
  cases x <;> simp [bind, Except.bind]

/-- A computation is refused at its first part or at what follows. -/
theorem bind_eq_error {α β ε : Type} {x : Except ε α} {f : α → Except ε β} {e : ε}
    (h : x >>= f = .error e) : x = .error e ∨ ∃ a, x = .ok a ∧ f a = .error e := by
  cases x with
  | error e' =>
    cases h
    exact .inl rfl
  | ok a => exact .inr ⟨a, rfl, h⟩

/-- A traversal that fails does so at one of its steps. -/
theorem exists_mem_of_mapM_eq_error {α β ε : Type} {f : α → Except ε β} {l : List α} {e : ε}
    (h : l.mapM f = .error e) : ∃ a ∈ l, f a = .error e := by
  induction l with
  | nil => cases h
  | cons a l ih =>
    rw [List.mapM_cons] at h
    rcases bind_eq_error h with ha | ⟨b, _, h⟩
    · exact ⟨a, List.mem_cons_self, ha⟩
    · rcases bind_eq_error h with hl | ⟨_, _, h⟩
      · obtain ⟨a', ha', he⟩ := ih hl
        exact ⟨a', List.mem_cons_of_mem a ha', he⟩
      · cases h

/-- A traversal in another order succeeds with the results in another order. -/
theorem mapM_ok_of_perm {α β ε : Type} {f : α → Except ε β} {l l' : List α} {out : List β}
    (h : l'.Perm l) (hl : l.mapM f = .ok out) : ∃ out', l'.mapM f = .ok out' ∧ out'.Perm out := by
  obtain ⟨out', hout', hp⟩ := List.perm_comp_forall₂ h (mapM_eq_ok_iff.mp hl)
  exact ⟨out', mapM_eq_ok_iff.mpr hout', hp⟩

/-! ## The first of several grounds -/

section FirstOf

variable {α β ε : Type} {ground : ε → Prop} {grounds : List (ε → Prop)} {fault reason : ε}
  {condition : Prop}

/-- The first of the grounds that applies gives the fault. -/
def FirstOf : List (ε → Prop) → ε → Prop
  | [], _ => False
  | ground :: later, fault => ground fault ∨ (∀ other, ¬ground other) ∧ FirstOf later fault

/-- The ground that applies under a condition, and gives one fault. -/
def RefusedIf (condition : Prop) (reason fault : ε) : Prop := condition ∧ fault = reason

/-- A ground that does not apply is passed over. -/
theorem firstOf_cons_of_not (h : ∀ other, ¬ground other) :
    FirstOf (ground :: grounds) fault ↔ FirstOf grounds fault := by
  simp [FirstOf, h]

/-- A ground that applies to one fault gives that. -/
theorem firstOf_cons_of_iff (h : ∀ other, ground other ↔ other = reason) :
    FirstOf (ground :: grounds) fault ↔ fault = reason := by
  simp [FirstOf, h]

theorem firstOf_refusedIf_of_not (h : ¬condition) :
    FirstOf (RefusedIf condition reason :: grounds) fault ↔ FirstOf grounds fault :=
  firstOf_cons_of_not fun _ hother => h hother.1

theorem firstOf_refusedIf_of (h : condition) :
    FirstOf (RefusedIf condition reason :: grounds) fault ↔ fault = reason :=
  firstOf_cons_of_iff fun _ => and_iff_right h

/-- What stands behind is looked at if nothing before it applies. -/
theorem firstOf_append_iff {later : List (ε → Prop)} : FirstOf (grounds ++ later) fault ↔
    FirstOf grounds fault ∨ (∀ other, ¬FirstOf grounds other) ∧ FirstOf later fault := by
  induction grounds with
  | nil => simp [FirstOf]
  | cons ground rest ih =>
    by_cases hground : ∀ other, ¬ground other
    · simp only [List.cons_append, firstOf_cons_of_not hground, ih]
    · simp [FirstOf, hground]

theorem exists_ground_of_firstOf (h : FirstOf grounds fault) : ∃ ground ∈ grounds, ground fault := by
  induction grounds with
  | nil => exact h.elim
  | cons ground later ih =>
    rcases h with h | ⟨_, h⟩
    · exact ⟨ground, List.mem_cons_self, h⟩
    · obtain ⟨ground', hmem, h'⟩ := ih h
      exact ⟨ground', List.mem_cons_of_mem _ hmem, h'⟩

/-- There is a first one iff there is one. -/
theorem exists_firstOf_iff :
    (∃ fault, FirstOf grounds fault) ↔ ∃ ground ∈ grounds, ∃ fault, ground fault := by
  constructor
  · rintro ⟨fault, h⟩
    obtain ⟨ground, hmem, hground⟩ := exists_ground_of_firstOf h
    exact ⟨ground, hmem, fault, hground⟩
  · rintro ⟨ground, hmem, fault, h⟩
    induction grounds with
    | nil => cases hmem
    | cons first later ih =>
      by_cases hfirst : ∃ other, first other
      · obtain ⟨other, hother⟩ := hfirst
        exact ⟨other, .inl hother⟩
      · rcases List.mem_cons.mp hmem with rfl | hmem
        · exact (hfirst ⟨fault, h⟩).elim
        · obtain ⟨other, hother⟩ := ih hmem
          exact ⟨other, .inr ⟨not_exists.mp hfirst, hother⟩⟩

theorem firstOf_map_congr {p q : α → ε → Prop} {l : List α}
    (h : ∀ a ∈ l, ∀ fault, p a fault ↔ q a fault) :
    FirstOf (l.map p) fault ↔ FirstOf (l.map q) fault := by
  have hmap : l.map p = l.map q := by
    apply List.map_congr_left
    intro a ha
    funext fault
    exact propext (h a ha fault)
  rw [hmap]

/-- A traversal fails at the first step that does. -/
theorem mapM_eq_error_iff {f : α → Except ε β} {l : List α} :
    l.mapM f = .error fault ↔ FirstOf (l.map fun a other => f a = .error other) fault := by
  induction l with
  | nil => simp [FirstOf, pure, Except.pure]
  | cons a l ih =>
    rw [List.mapM_cons, List.map_cons]
    cases ha : f a with
    | error reason =>
      have hreason : ∀ other, (.error reason : Except ε β) = .error other ↔ other = reason := by
        simp [eq_comm]
      rw [firstOf_cons_of_iff hreason]
      simp [bind, Except.bind, eq_comm]
    | ok b =>
      rw [firstOf_cons_of_not (by simp), ← ih]
      cases l.mapM f <;> simp [bind, Except.bind, pure, Except.pure]

end FirstOf

end DelayedPayout
