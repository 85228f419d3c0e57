/-!
How long the text of an integer may be. Longer texts are not read, and longer integers are not written:
what has to name one is not said (`Reportable`).
-/

namespace DelayedPayout.Number

/-- No integer is read from more digits than these, or written with more. -/
def maxDigits : Nat := 4300

/-- An integer that can be written: the sign does not count as a digit. -/
def Writable (n : Int) : Prop := n.natAbs < Nat.pow 10 maxDigits

instance : DecidablePred Writable := fun n => Nat.decLt n.natAbs (Nat.pow 10 maxDigits)

theorem Writable.of_natAbs_le {m n : Int} (h : m.natAbs ≤ n.natAbs) (writable : Writable n) :
    Writable m := Nat.lt_of_le_of_lt h writable

/-- A line that names these integers can be written. -/
def Reportable (named : List Int) : Prop := ∀ n ∈ named, Writable n

instance : DecidablePred Reportable := fun named => List.decidableBAll Writable named

@[simp]
theorem reportable_nil : Reportable [] := List.forall_mem_nil Writable

@[simp]
theorem reportable_cons {n : Int} {named : List Int} :
    Reportable (n :: named) ↔ Writable n ∧ Reportable named := List.forall_mem_cons

theorem reportable_singleton {n : Int} : Reportable [n] ↔ Writable n := by
  simp

@[simp]
theorem reportable_append {before behind : List Int} :
    Reportable (before ++ behind) ↔ Reportable before ∧ Reportable behind := List.forall_mem_append

end DelayedPayout.Number
