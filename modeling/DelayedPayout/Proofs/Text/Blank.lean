import DelayedPayout.Text.Blank
import DelayedPayout.Text.Digit
import Mathlib.Data.List.DropRight

/-!
Stripping a text. What it takes off belongs to the class (`exists_eq_strip`), and it takes off all of it:
a text that neither begins nor ends in the class is what is left of the text with such characters around it
(`strip_append`). Digits and signs are not blank.
-/

namespace DelayedPayout.Text

/-! ## Stripping -/

section Strip

variable {drop : Char → Bool} {s before body after : List Char}

theorem strip_eq_rdropWhile (drop : Char → Bool) (s : List Char) :
    strip drop s = (s.dropWhile drop).rdropWhile drop := rfl

theorem strip_eq_nil_iff : strip drop s = [] ↔ ∀ c ∈ s, drop c = true := by
  rw [strip_eq_rdropWhile, List.rdropWhile_eq_nil_iff]
  constructor
  · intro h c hc
    rw [← List.takeWhile_append_dropWhile (p := drop) (l := s)] at hc
    rcases List.mem_append.mp hc with hc | hc
    · exact List.mem_takeWhile_imp hc
    · exact h c hc
  · exact fun h c hc => h c ((List.dropWhile_suffix drop).mem hc)

/-- What is taken off belongs to the class. -/
theorem exists_eq_strip (drop : Char → Bool) (s : List Char) :
    ∃ before after, s = before ++ strip drop s ++ after ∧ (∀ c ∈ before, drop c = true) ∧
      ∀ c ∈ after, drop c = true := by
  refine ⟨s.takeWhile drop, (s.dropWhile drop).rtakeWhile drop, ?_,
    fun c hc => List.mem_takeWhile_imp hc, fun c hc => List.mem_rtakeWhile_imp hc⟩
  rw [strip_eq_rdropWhile, List.append_assoc, List.rdropWhile_append_rtakeWhile,
    List.takeWhile_append_dropWhile]

theorem dropWhile_of_head? (h : ∀ c ∈ s.head?, drop c = false) : s.dropWhile drop = s := by
  cases s with
  | nil => rfl
  | cons first rest => simp [h first rfl]

/-- A text without the class at its ends is what is left of it between characters of the class. -/
theorem strip_append (hbefore : ∀ c ∈ before, drop c = true) (hafter : ∀ c ∈ after, drop c = true)
    (hfirst : ∀ c ∈ body.head?, drop c = false) (hlast : ∀ c ∈ body.getLast?, drop c = false) :
    strip drop (before ++ body ++ after) = body := by
  by_cases hempty : body = []
  · subst hempty
    rw [List.append_nil, strip_eq_nil_iff]
    exact fun c hc => (List.mem_append.mp hc).elim (hbefore c) (hafter c)
  · have hopen : (body ++ after).dropWhile drop = body ++ after := by
      apply dropWhile_of_head?
      rwa [List.head?_append_of_ne_nil _ hempty]
    have hclose : body.reverse.dropWhile drop = body.reverse := by
      apply dropWhile_of_head?
      rwa [List.head?_reverse]
    have hafter' : ∀ c ∈ after.reverse, drop c = true := fun c hc => hafter c (List.mem_reverse.mp hc)
    rw [strip, List.append_assoc, List.dropWhile_append_of_pos hbefore, hopen, List.reverse_append,
      List.dropWhile_append_of_pos hafter', hclose, List.reverse_reverse]

end Strip

/-! ## Digits -/

/-- A digit is one of the ten from the zero of a script on. -/
theorem exists_zeroDigit_of_digitValue? {c : Char} {d : Nat} (h : digitValue? c = some d) :
    ∃ first ∈ zeroDigits, c.toNat = first + d ∧ d < 10 := by
  obtain ⟨first, hfind, rfl⟩ := Option.map_eq_some_iff.mp h
  have hrange := List.find?_some hfind
  simp only [Bool.and_eq_true, decide_eq_true_eq] at hrange
  exact ⟨first, List.mem_of_find?_eq_some hfind, by omega, by omega⟩

/-- No digit is blank. -/
theorem isBlank_of_digitValue? {c : Char} {d : Nat} (h : digitValue? c = some d) :
    isBlank c = false := by
  have hapart : ∀ first ∈ zeroDigits, ∀ d < 10, (inRanges whiteSpaceRanges (first + d) ||
      (0x1C ≤ first + d && first + d ≤ 0x1F)) = false := by
    decide +kernel
  obtain ⟨first, hfirst, hcode, hd⟩ := exists_zeroDigit_of_digitValue? h
  rw [isBlank, isWhiteSpace, hcode]
  exact hapart first hfirst d hd

end DelayedPayout.Text
