import DelayedPayout.Number.Numeral
import DelayedPayout.Proofs.Text.Blank
import Mathlib.Data.List.Induction
import Mathlib.Tactic.IntervalCases

/-!
The texts that stand for integers. They are given as a grammar (`IntegerText`): a sign that may be missing,
and digits with single underscores between them. Reading accepts exactly those texts
(`integer?_eq_some_iff`). The limit for reading is that for writing: what is read can be written
(`IntegerText.writable`), and the decimal digits of a natural number are one of its texts if they are no
more than the limit allows (`integerText_toDigits`).
-/

namespace DelayedPayout.Number

open DelayedPayout.Text

/-! ## Digits -/

/-- Digits of any script, and what each of them counts. A single underscore may stand between two of
them. -/
inductive DigitText : List Char → List Nat → Prop
  | last {c : Char} {d : Nat} (h : digitValue? c = some d) : DigitText [c] [d]
  | next {c : Char} {d : Nat} {s : List Char} {ds : List Nat} (h : digitValue? c = some d)
    (rest : DigitText s ds) : DigitText (c :: s) (d :: ds)
  | underscore {c : Char} {d : Nat} {s : List Char} {ds : List Nat} (h : digitValue? c = some d)
    (rest : DigitText s ds) : DigitText (c :: '_' :: s) (d :: ds)

/-- A sign and its factor; none counts as plus. -/
inductive SignText : List Char → Int → Prop
  | none : SignText [] 1
  | plus : SignText ['+'] 1
  | minus : SignText ['-'] (-1)

/-- A text and the integer that it stands for. -/
def IntegerText (s : List Char) (n : Int) : Prop :=
  ∃ sign factor digits ds, s = sign ++ digits ∧ SignText sign factor ∧ DigitText digits ds ∧
    ds.length ≤ maxDigits ∧ n = factor * (ofDigits ds : Int)

variable {s : List Char} {ds : List Nat} {c : Char} {d : Nat} {n : Int}

namespace DigitText

theorem exists_cons (h : DigitText s ds) : ∃ c rest d, s = c :: rest ∧ digitValue? c = some d := by
  cases h with
  | last h => exact ⟨_, _, _, rfl, h⟩
  | next h _ => exact ⟨_, _, _, rfl, h⟩
  | underscore h _ => exact ⟨_, _, _, rfl, h⟩

theorem exists_concat (h : DigitText s ds) : ∃ init c d, s = init ++ [c] ∧ digitValue? c = some d := by
  induction h with
  | last h => exact ⟨[], _, _, rfl, h⟩
  | @next c _ _ _ _ _ ih =>
    obtain ⟨init, last, d, rfl, hlast⟩ := ih
    exact ⟨c :: init, last, d, rfl, hlast⟩
  | @underscore c _ _ _ _ _ ih =>
    obtain ⟨init, last, d, rfl, hlast⟩ := ih
    exact ⟨c :: '_' :: init, last, d, rfl, hlast⟩

theorem concat (h : DigitText s ds) (hc : digitValue? c = some d) :
    DigitText (s ++ [c]) (ds ++ [d]) := by
  induction h with
  | last h => exact .next h (.last hc)
  | next h _ ih => exact .next h ih
  | underscore h _ ih => exact .underscore h ih

end DigitText

theorem digits?_eq_some_iff : digits? s = some ds ↔ DigitText s ds := by
  constructor
  · intro h
    fun_induction digits? s generalizing ds with
    | case1 => cases h
    | case2 c =>
      obtain ⟨d, hd, rfl⟩ := Option.map_eq_some_iff.mp h
      exact .last hd
    | case3 c rest ih =>
      obtain ⟨d, hd, h⟩ := Option.bind_eq_some_iff.mp h
      obtain ⟨ds, hds, h⟩ := Option.bind_eq_some_iff.mp h
      cases h
      exact .underscore hd (ih hds)
    | case4 c next rest _ ih =>
      obtain ⟨d, hd, h⟩ := Option.bind_eq_some_iff.mp h
      obtain ⟨ds, hds, h⟩ := Option.bind_eq_some_iff.mp h
      cases h
      exact .next hd (ih hds)
  · intro h
    induction h with
    | last h => simp [digits?, h]
    | next h rest ih =>
      obtain ⟨next, tail, d', rfl, hnext⟩ := rest.exists_cons
      have hne : next ≠ '_' := by
        rintro rfl
        cases hnext
      rw [digits?]
      · simp [h, ih]
      · exact hne
    | underscore h rest ih => simp [digits?, h, ih]

/-! ## Signs -/

/-- Of a text a sign is taken off, if it has one. -/
theorem exists_signText (s : List Char) :
    ∃ sign factor, s = sign ++ (signed s).2 ∧ SignText sign factor ∧
      ∀ m : Int, (if (signed s).1 then -m else m) = factor * m := by
  unfold signed
  split
  · exact ⟨['-'], -1, rfl, .minus, fun m => by simp⟩
  · exact ⟨['+'], 1, rfl, .plus, fun m => by simp⟩
  · exact ⟨[], 1, rfl, .none, fun m => by simp⟩

/-- What is taken off before digits is the sign, since no sign is a digit. -/
theorem signed_append {sign digits : List Char} {factor : Int} (hsign : SignText sign factor)
    (hdigits : DigitText digits ds) :
    (signed (sign ++ digits)).2 = digits ∧
      ∀ m : Int, (if (signed (sign ++ digits)).1 then -m else m) = factor * m := by
  cases hsign with
  | none =>
    obtain ⟨c, rest, d, rfl, hc⟩ := hdigits.exists_cons
    have hminus : c ≠ '-' := by
      rintro rfl
      cases hc
    have hplus : c ≠ '+' := by
      rintro rfl
      cases hc
    simp [signed, hminus, hplus]
  | plus => simp [signed]
  | minus => simp [signed]

/-! ## Integers -/

theorem integer?_eq_bind (s : List Char) :
    integer? s = (digits? (signed s).2).bind fun ds => if maxDigits < ds.length then none
      else some (if (signed s).1 then -(ofDigits ds : Int) else ofDigits ds) := rfl

theorem integer?_eq_some_iff_signed :
    integer? s = some n ↔ ∃ ds, DigitText (signed s).2 ds ∧ ds.length ≤ maxDigits ∧
      (if (signed s).1 then -(ofDigits ds : Int) else ofDigits ds) = n := by
  simp only [integer?_eq_bind, Option.bind_eq_some_iff, digits?_eq_some_iff, ← not_lt]
  simp only [Option.ite_none_left_eq_some, Option.some_inj]

/-- **Reading accepts exactly the texts of the grammar.** -/
theorem integer?_eq_some_iff : integer? s = some n ↔ IntegerText s n := by
  rw [integer?_eq_some_iff_signed]
  constructor
  · rintro ⟨ds, hds, hlength, hvalue⟩
    obtain ⟨sign, factor, hs, hsign, hfactor⟩ := exists_signText s
    exact ⟨sign, factor, (signed s).2, ds, hs, hsign, hds, hlength, by rw [← hvalue, hfactor]⟩
  · rintro ⟨sign, factor, digits, ds, rfl, hsign, hds, hlength, rfl⟩
    obtain ⟨hrest, hfactor⟩ := signed_append hsign hds
    exact ⟨ds, hrest.symm ▸ hds, hlength, hfactor _⟩

namespace IntegerText

/-- A text of an integer begins with a sign or a digit. -/
theorem isBlank_head (h : IntegerText s n) : ∀ c ∈ s.head?, isBlank c = false := by
  obtain ⟨sign, factor, digits, ds, rfl, hsign, hds, _, _⟩ := h
  intro c hc
  cases hsign with
  | none =>
    obtain ⟨first, rest, d, rfl, hfirst⟩ := hds.exists_cons
    cases hc
    exact isBlank_of_digitValue? hfirst
  | plus =>
    cases hc
    decide
  | minus =>
    cases hc
    decide

/-- A text of an integer ends with a digit. -/
theorem isBlank_getLast (h : IntegerText s n) : ∀ c ∈ s.getLast?, isBlank c = false := by
  obtain ⟨sign, factor, digits, ds, rfl, _, hds, _, _⟩ := h
  obtain ⟨init, last, d, rfl, hlast⟩ := hds.exists_concat
  intro c hc
  rw [← List.append_assoc, List.getLast?_concat] at hc
  cases hc
  exact isBlank_of_digitValue? hlast

theorem ne_nil (h : IntegerText s n) : s ≠ [] := by
  obtain ⟨sign, factor, digits, ds, rfl, _, hds, _, _⟩ := h
  obtain ⟨first, rest, d, rfl, _⟩ := hds.exists_cons
  simp

end IntegerText

/-! ## Decimal digits -/

theorem ofDigits_concat (ds : List Nat) (d : Nat) : ofDigits (ds ++ [d]) = 10 * ofDigits ds + d := by
  rw [ofDigits, List.foldl_append]
  rfl

theorem digitValue?_lt (h : digitValue? c = some d) : d < 10 := by
  obtain ⟨first, hfind, rfl⟩ := Option.map_eq_some_iff.mp h
  have hrange := List.find?_some hfind
  simp only [Bool.and_eq_true, decide_eq_true_eq] at hrange
  omega

theorem DigitText.lt (h : DigitText s ds) : ∀ d ∈ ds, d < 10 := by
  induction h with
  | last h => simpa using digitValue?_lt h
  | next h _ ih | underscore h _ ih => simpa using ⟨digitValue?_lt h, ih⟩

theorem ofDigits_lt (h : ∀ d ∈ ds, d < 10) : ofDigits ds < 10 ^ ds.length := by
  induction ds using List.reverseRecOn with
  | nil => exact Nat.one_pos
  | append_singleton ds d ih =>
    have hinit := ih fun d hd => h d (List.mem_append_left _ hd)
    have hlast := h d (List.mem_append_right _ (List.mem_singleton_self d))
    rw [ofDigits_concat, List.length_append, List.length_singleton, pow_succ]
    omega

theorem DigitText.ofDigits_lt_pow {k : Nat} (h : DigitText s ds) (hlength : ds.length ≤ k) :
    ofDigits ds < Nat.pow 10 k :=
  (ofDigits_lt h.lt).trans_le (Nat.pow_le_pow_right (by decide) hlength)

/-- What is read can be written. -/
theorem IntegerText.writable (h : IntegerText s n) : Writable n := by
  obtain ⟨sign, factor, digits, ds, _, hsign, hds, hlength, rfl⟩ := h
  have habs : (factor * (ofDigits ds : Int)).natAbs = ofDigits ds := by cases hsign <;> simp
  exact habs.trans_lt (hds.ofDigits_lt_pow hlength)

theorem digitValue?_digitChar (h : d < 10) : digitValue? (Nat.digitChar d) = some d := by
  interval_cases d <;> rfl

/-- The digits of a natural number count it. -/
theorem exists_digitText_toDigits (n : Nat) :
    ∃ ds, DigitText (Nat.toDigits 10 n) ds ∧ ds.length = (Nat.toDigits 10 n).length ∧
      ofDigits ds = n := by
  induction n using Nat.strongRecOn with
  | ind n ih =>
    rw [Nat.toDigits_eq_if (by decide)]
    by_cases hlt : n < 10
    · rw [if_pos hlt]
      exact ⟨[n], .last (digitValue?_digitChar hlt), rfl, by simp [ofDigits]⟩
    · rw [if_neg hlt]
      obtain ⟨ds, hds, hlength, hvalue⟩ := ih (n / 10) (by omega)
      refine ⟨ds ++ [n % 10], hds.concat (digitValue?_digitChar (Nat.mod_lt n (by decide))), ?_, ?_⟩
      · simp [hlength]
      · rw [ofDigits_concat, hvalue]
        omega

/-- Within the limit the decimal digits are a text of the number. -/
theorem integerText_toDigits {n : Nat} (h : n < 10 ^ maxDigits) :
    IntegerText (Nat.toDigits 10 n) n := by
  obtain ⟨ds, hds, hlength, hvalue⟩ := exists_digitText_toDigits n
  refine ⟨[], 1, _, ds, rfl, .none, hds, ?_, by rw [hvalue, one_mul]⟩
  rw [hlength, Nat.length_toDigits_le_iff (by decide) (by decide)]
  exact h

end DelayedPayout.Number
