import DelayedPayout.Params.Environment
import DelayedPayout.Proofs.Number.IntegerText
import DelayedPayout.Proofs.Params.Basic

/-!
Parameter sets from environment variables, by what a variable may say (`Param.Says`): nothing, blanks
only, or an integer between blanks. An environment makes a set exactly when it says the values of that set
(`ofEnvironment_eq_ok_iff`). Of the refusals, a text that is no integer comes before any value, a
negative value before a zero divisor, and within each of these the first parameter
(`ofEnvironment_eq_error_iff`). Main statement: `Params.ofEnvironment_by_grammar`.
-/

namespace DelayedPayout

open Number Text

namespace Param

/-! ## One variable -/

/-- What an environment says of a parameter. -/
inductive Says (environment : String → Option String) (p : Param) : Int → Prop
  | absent (h : environment p.environmentVariable = none) : Says environment p p.standard
  | blank {raw : String} (h : environment p.environmentVariable = some raw)
    (hblank : ∀ c ∈ raw.toList, isBlank c = true) : Says environment p p.standard
  | integer {raw : String} {before text after : List Char} {n : Int}
    (h : environment p.environmentVariable = some raw) (hraw : raw.toList = before ++ text ++ after)
    (hbefore : ∀ c ∈ before, isBlank c = true) (hafter : ∀ c ∈ after, isBlank c = true)
    (htext : IntegerText text n) : Says environment p n

/-- The refusal of a variable that is set, but says nothing of its parameter. -/
def Unreadable (environment : String → Option String) (p : Param) (fault : Fault) : Prop :=
  ∃ raw, environment p.environmentVariable = some raw ∧ (∀ n, ¬p.Says environment n) ∧
    fault = .unreadableVariable p raw

def Negative (environment : String → Option String) (p : Param) (fault : Fault) : Prop :=
  ∃ n, p.Says environment n ∧ RefusedIf (n < 0) (.negativeParam p n) fault

variable {environment : String → Option String} {p : Param} {raw : String} {n : Int} {fault : Fault}

theorem read_of_absent (h : environment p.environmentVariable = none) :
    p.read environment = .ok p.standard := by
  rw [read, h]

theorem read_of_blank (h : environment p.environmentVariable = some raw)
    (hblank : strip isBlank raw.toList = []) : p.read environment = .ok p.standard := by
  simp [read, h, hblank]

theorem read_of_text (h : environment p.environmentVariable = some raw)
    (htext : strip isBlank raw.toList ≠ []) : p.read environment =
      (integer? (strip isBlank raw.toList)).elim (.error (.unreadableVariable p raw)) .ok := by
  rw [read, h]
  simp only [List.isEmpty_iff, htext, ↓reduceIte]
  cases hread : integer? (strip isBlank raw.toList) with
  | none => rfl
  | some n =>
    have hwritable := (integer?_eq_some_iff.mp hread).writable
    simp only [report_of_reportable (reportable_singleton.mpr hwritable)]
    rfl

theorem Says.read_eq (h : p.Says environment n) : p.read environment = .ok n := by
  cases h with
  | absent h => exact read_of_absent h
  | blank h hblank => exact read_of_blank h (strip_eq_nil_iff.mpr hblank)
  | integer h hraw hbefore hafter htext =>
    have hstrip := strip_append hbefore hafter htext.isBlank_head htext.isBlank_getLast
    rw [← hraw] at hstrip
    rw [read_of_text h (hstrip ▸ htext.ne_nil), hstrip, integer?_eq_some_iff.mpr htext]
    rfl

/-- What is read is said, and otherwise the variable is set and named by the refusal. -/
theorem read_cases (environment : String → Option String) (p : Param) :
    (∃ n, p.Says environment n ∧ p.read environment = .ok n) ∨
      ∃ raw, environment p.environmentVariable = some raw ∧
        p.read environment = .error (.unreadableVariable p raw) := by
  cases h : environment p.environmentVariable with
  | none => exact .inl ⟨_, .absent h, read_of_absent h⟩
  | some raw =>
    by_cases hblank : strip isBlank raw.toList = []
    · exact .inl ⟨_, .blank h (strip_eq_nil_iff.mp hblank), read_of_blank h hblank⟩
    · have hread := read_of_text h hblank
      cases htext : integer? (strip isBlank raw.toList) with
      | none =>
        rw [htext] at hread
        exact .inr ⟨raw, rfl, hread⟩
      | some n =>
        rw [htext] at hread
        obtain ⟨before, after, hraw, hbefore, hafter⟩ := exists_eq_strip isBlank raw.toList
        exact .inl ⟨n, .integer h hraw hbefore hafter (integer?_eq_some_iff.mp htext), hread⟩

/-- **A variable is read as what it says.** -/
theorem read_eq_ok_iff : p.read environment = .ok n ↔ p.Says environment n := by
  refine ⟨fun hread => ?_, Says.read_eq⟩
  obtain ⟨m, hm, hok⟩ | ⟨raw, _, herror⟩ := read_cases environment p
  · rw [hread] at hok
    cases hok
    exact hm
  · rw [hread] at herror
    cases herror

/-- **A variable is refused if it says nothing.** -/
theorem read_eq_error_iff : p.read environment = .error fault ↔ p.Unreadable environment fault := by
  obtain ⟨m, hm, hok⟩ | ⟨raw, h, herror⟩ := read_cases environment p
  · have hreadable : ¬p.Unreadable environment fault := fun ⟨_, _, hnone, _⟩ => hnone m hm
    simp [hok, hreadable]
  · have hnone : ∀ n, ¬p.Says environment n := by
      intro n hn
      rw [hn.read_eq] at herror
      cases herror
    simp [Unreadable, herror, h, hnone, eq_comm]

/-- A variable says one number. -/
theorem Says.iff_eq {m : Int} (hm : p.Says environment m) : p.Says environment n ↔ m = n := by
  rw [← read_eq_ok_iff, hm.read_eq, Except.ok.injEq]

/-- Decimal digits between blanks say their number. -/
theorem says_decimal {before after : List Char} {n : Nat} (hn : n < 10 ^ maxDigits)
    (hblank : ∀ c ∈ before ++ after, isBlank c = true)
    (h : environment p.environmentVariable =
      some (String.ofList (before ++ (toString n).toList ++ after))) : p.Says environment n := by
  rw [Nat.toString_eq_ofList_toDigits, String.toList_ofList] at h
  exact .integer h String.toList_ofList (fun c hc => hblank c (List.mem_append_left after hc))
    (fun c hc => hblank c (List.mem_append_right before hc)) (integerText_toDigits hn)

end Param

namespace Params

variable {environment : String → Option String} {values : Param → Int} {params : Params} {fault : Fault}

/-! ## All variables -/

theorem ofEnvironment_congr {other : String → Option String}
    (h : ∀ p : Param, other p.environmentVariable = environment p.environmentVariable) :
    ofEnvironment other = ofEnvironment environment := by
  have hread : Param.read other = Param.read environment := by
    funext p
    rw [Param.read, Param.read, h p]
  rw [ofEnvironment, ofEnvironment, hread]

theorem ofEnvironment_of_values (h : ∀ p : Param, p.Says environment (values p)) :
    ofEnvironment environment = ofScalars fun p => .int (values p) := by
  have hvalues : Param.inOrder (Param.read environment) = .ok values :=
    Param.inOrder_eq_ok_iff.mpr fun p => (h p).read_eq
  rw [ofEnvironment, hvalues]
  rfl

theorem firstOf_unreadable_iff : FirstOf (Param.all.map (Param.Unreadable environment)) fault ↔
    Param.inOrder (Param.read environment) = .error fault := by
  rw [Param.inOrder_eq_error_iff]
  exact firstOf_map_congr fun p _ _ => Param.read_eq_error_iff.symm

theorem ofEnvironment_of_unreadable
    (h : FirstOf (Param.all.map (Param.Unreadable environment)) fault) :
    ofEnvironment environment = .error fault := by
  rw [ofEnvironment, firstOf_unreadable_iff.mp h]
  rfl

/-- Either every variable says a number, or there is a first one that cannot be read. -/
theorem exists_says_or_unreadable (environment : String → Option String) :
    (∃ values : Param → Int, ∀ p : Param, p.Says environment (values p)) ∨
      ∃ fault, FirstOf (Param.all.map (Param.Unreadable environment)) fault := by
  cases hread : Param.inOrder (Param.read environment) with
  | ok values =>
    exact .inl ⟨values, fun p => Param.read_eq_ok_iff.mp (Param.inOrder_eq_ok_iff.mp hread p)⟩
  | error fault => exact .inr ⟨fault, firstOf_unreadable_iff.mpr hread⟩

/-- **The sets that environments make.** -/
theorem ofEnvironment_eq_ok_iff :
    ofEnvironment environment = .ok params ↔ ∀ p : Param, p.Says environment (params.get p) := by
  constructor
  · intro h
    obtain ⟨values, hvalues⟩ | ⟨fault, hfault⟩ := exists_says_or_unreadable environment
    · rw [ofEnvironment_of_values hvalues, ofScalars_eq_ok_iff] at h
      intro p
      rw [← Scalar.int.inj (h p)]
      exact hvalues p
    · rw [ofEnvironment_of_unreadable hfault] at h
      cases h
  · intro h
    rw [ofEnvironment_of_values h, ofScalars_eq_ok_iff]
    exact fun _ => rfl

def environmentRefusals (environment : String → Option String) : List (Fault → Prop) :=
  Param.all.map (Param.Unreadable environment) ++ (Param.all.map (Param.Negative environment) ++
    [RefusedIf (Param.snapshotGrid.Says environment 0) (.zeroParam .snapshotGrid),
      RefusedIf (Param.referenceTxSize.Says environment 0) (.zeroParam .referenceTxSize)])

/-- **Why environments make no set.** -/
theorem ofEnvironment_eq_error_iff :
    ofEnvironment environment = .error fault ↔ FirstOf (environmentRefusals environment) fault := by
  rw [environmentRefusals, firstOf_append_iff]
  obtain ⟨values, hvalues⟩ | ⟨found, hfound⟩ := exists_says_or_unreadable environment
  · have hreadable : ∀ other, ¬FirstOf (Param.all.map (Param.Unreadable environment)) other := by
      intro other hother
      rw [firstOf_unreadable_iff,
        Param.inOrder_eq_ok_iff.mpr fun p => (hvalues p).read_eq] at hother
      cases hother
    have htold : ∀ (p : Param) n, p.Says environment n ↔ values p = n := fun p _ => (hvalues p).iff_eq
    have hnegative : (fun p : Param => p.NoNatural (.int (values p))) = Param.Negative environment := by
      funext p fault
      simp [Param.Negative, htold, Param.noNatural_int_iff]
    rw [ofEnvironment_of_values hvalues, ofScalars_eq_error_iff, hnegative]
    simp [hreadable, htold]
  · have hfirst : ∀ other, FirstOf (Param.all.map (Param.Unreadable environment)) other ↔
        found = other := by
      intro other
      rw [firstOf_unreadable_iff, firstOf_unreadable_iff.mp hfound, Except.error.injEq]
    simp [ofEnvironment_of_unreadable hfound, hfirst]

/-! ## The grammar of environments -/

/-- **An environment makes the set of the numbers that its variables say.** Only the variables of the
parameters count. The first text that is no integer refuses the environment, whatever the others are;
without one, the numbers decide, a negative one before a zero divisor. A set whose values are written in
decimal digits, between any blanks, is read back. -/
theorem ofEnvironment_by_grammar (environment : String → Option String) :
    (∀ other : String → Option String,
      (∀ p : Param, other p.environmentVariable = environment p.environmentVariable) →
      ofEnvironment other = ofEnvironment environment) ∧
    (∀ fault, FirstOf (Param.all.map (Param.Unreadable environment)) fault →
      ofEnvironment environment = .error fault) ∧
    ((∀ (p : Param) (fault : Fault), ¬p.Unreadable environment fault) → ∃ values : Param → Int,
      (∀ (p : Param) (n : Int), p.Says environment n ↔ values p = n) ∧
      ofEnvironment environment = ofScalars (fun p => .int (values p)) ∧
      ((∃ params, ofEnvironment environment = .ok params) ↔
        (∀ p, 0 ≤ values p) ∧ 1 ≤ values .snapshotGrid ∧ 1 ≤ values .referenceTxSize)) ∧
    (∀ params, ofEnvironment environment = .ok params ↔
      ∀ p : Param, p.Says environment (params.get p)) ∧
    (∀ fault, ofEnvironment environment = .error fault ↔
      FirstOf (environmentRefusals environment) fault) ∧
    ∀ params : Params, (∀ p, params.get p < 10 ^ maxDigits) →
      (∀ p : Param, ∃ before after : List Char, (∀ c ∈ before ++ after, isBlank c = true) ∧
        environment p.environmentVariable =
          some (String.ofList (before ++ (toString (params.get p)).toList ++ after))) →
      ofEnvironment environment = .ok params := by
  refine ⟨fun other => ofEnvironment_congr, fun fault => ofEnvironment_of_unreadable, ?_,
    fun params => ofEnvironment_eq_ok_iff, fun fault => ofEnvironment_eq_error_iff, ?_⟩
  · intro hreadable
    obtain ⟨values, hvalues⟩ | ⟨fault, hfault⟩ := exists_says_or_unreadable environment
    · refine ⟨values, fun p n => (hvalues p).iff_eq, ofEnvironment_of_values hvalues, ?_⟩
      rw [ofEnvironment_of_values hvalues]
      exact exists_ofScalars_int_iff
    · obtain ⟨ground, hmem, hground⟩ := exists_ground_of_firstOf hfault
      obtain ⟨p, _, rfl⟩ := List.mem_map.mp hmem
      exact (hreadable p fault hground).elim
  · intro params hbound hdecimal
    refine ofEnvironment_eq_ok_iff.mpr fun p => ?_
    obtain ⟨before, after, hblank, h⟩ := hdecimal p
    exact Param.says_decimal (hbound p) hblank h

/-- A test network: Devanagari digits between blanks, an underscore, blanks only, and a variable of no
parameter. -/
def testNetwork (name : String) : Option String :=
  [("BURNPAYOUT_SNAPSHOT_GRID", "\u2003+\u096B\n"), ("BURNPAYOUT_MIN_OUTPUT_AMOUNT", " \t"),
    ("BURNPAYOUT_MIN_REMAINDER_TO_FALLBACK", "1_000"), ("PATH", "/bin")].lookup name

/-- Of two texts that are no integers the second belongs to an earlier parameter. -/
def misspelledNetwork (name : String) : Option String :=
  [("BURNPAYOUT_OUTPUT_SIZE", "0x20"), ("BURNPAYOUT_MIN_OUTPUT_AMOUNT", "1__000"),
    ("BURNPAYOUT_SNAPSHOT_GRID", "-1")].lookup name

def zeroGridNetwork (name : String) : Option String :=
  [("BURNPAYOUT_SNAPSHOT_GRID", "-0")].lookup name

/-- The standard values in decimal digits, with a space before and a line end behind. -/
def writtenStandard (name : String) : Option String :=
  [("BURNPAYOUT_SNAPSHOT_GRID", " 10\n"), ("BURNPAYOUT_MIN_OUTPUT_AMOUNT", " 1000\n"),
    ("BURNPAYOUT_MIN_REMAINDER_TO_FALLBACK", " 50000\n"), ("BURNPAYOUT_MIN_TX_FEE_RATE", " 10\n"),
    ("BURNPAYOUT_REFERENCE_TX_SIZE", " 278\n"), ("BURNPAYOUT_BASE_TX_SIZE", " 51\n"),
    ("BURNPAYOUT_OUTPUT_SIZE", " 32\n"), ("BURNPAYOUT_SELECTION_HEIGHT_TOLERANCE_GRIDS", " 1\n"),
    ("PATH", "/bin")].lookup name

theorem ofEnvironment_of_networks :
    ofEnvironment testNetwork = .ok
      { standard with snapshotGrid := 5, minRemainderToFallback := 1000, snapshotGrid_pos := by decide } ∧
    ofEnvironment misspelledNetwork = .error (.unreadableVariable .minOutputAmount "1__000") ∧
    (Fault.unreadableVariable .minOutputAmount "1__000").message =
      "Invalid BURNPAYOUT_MIN_OUTPUT_AMOUNT: '1__000' is not an integer" ∧
    (¬∃ params, ofEnvironment zeroGridNetwork = .ok params) ∧
    ofEnvironment writtenStandard = .ok standard := by
  refine ⟨?_, ?_, by decide +kernel, ?_, ?_⟩
  · obtain ⟨_, _, _, hmade, _⟩ := ofEnvironment_by_grammar testNetwork
    refine (hmade _).mpr fun p => Param.read_eq_ok_iff.mp ?_
    cases p <;> decide +kernel
  · obtain ⟨_, hrefused, _⟩ := ofEnvironment_by_grammar misspelledNetwork
    have hgrid : Param.snapshotGrid.Says misspelledNetwork (-1) :=
      Param.read_eq_ok_iff.mp (by decide +kernel)
    have hamount : Param.minOutputAmount.Unreadable misspelledNetwork
        (.unreadableVariable .minOutputAmount "1__000") :=
      Param.read_eq_error_iff.mp (by decide +kernel)
    exact hrefused _ (.inr ⟨fun _ ⟨_, _, hnone, _⟩ => hnone _ hgrid, .inl hamount⟩)
  · obtain ⟨_, _, hread, _⟩ := ofEnvironment_by_grammar zeroGridNetwork
    have htold : ∀ p : Param, ∃ n, p.Says zeroGridNetwork n := by
      intro p
      cases p
      · exact ⟨0, Param.read_eq_ok_iff.mp (by decide +kernel)⟩
      all_goals exact ⟨_, .absent (by decide +kernel)⟩
    obtain ⟨values, hvalues, _, hmade⟩ :=
      hread fun p _ ⟨_, _, hnone, _⟩ => (htold p).elim hnone
    have hzero : values .snapshotGrid = 0 :=
      (hvalues .snapshotGrid 0).mp (Param.read_eq_ok_iff.mp (by decide +kernel))
    intro hparams
    have hpos := (hmade.mp hparams).2.1
    omega
  · obtain ⟨_, _, _, _, _, hback⟩ := ofEnvironment_by_grammar writtenStandard
    refine hback standard ?_ fun p => ⟨[' '], ['\n'], List.all_eq_true.mp (by decide), ?_⟩
    · intro p
      cases p <;> decide +kernel
    · cases p <;> decide +kernel

end Params

end DelayedPayout
