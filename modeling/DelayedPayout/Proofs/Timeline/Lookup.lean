import DelayedPayout.Timeline

/-!
Which value applies at a height. It is the one whose height is the greatest up to there
(`Timeline.valueAt?_eq_some_iff`), so setting one more value changes the answers for the heights that it
reaches, up to the next entry, and no others (`Timeline.valueAt?_set`).
-/

namespace DelayedPayout

variable {α : Type} {entries : List (Int × α)}

/-! ## Entries in ascending order -/

/-- The entries up to a height come first. -/
theorem takeWhile_eq_filter_of_ascending (ascending : Ascending entries) (height : Int) :
    entries.takeWhile (·.1 ≤ height) = entries.filter (·.1 ≤ height) := by
  induction entries with
  | nil => rfl
  | cons first rest ih =>
    obtain ⟨before, later⟩ := List.pairwise_cons.mp ascending
    by_cases h : first.1 ≤ height
    · rw [List.takeWhile_cons_of_pos (by simpa using h), List.filter_cons_of_pos (by simpa using h),
        ih later]
    · have hrest : ∀ entry ∈ rest, ¬decide (entry.1 ≤ height) = true := by
        intro entry he
        have := before entry he
        simp only [decide_eq_true_eq]
        omega
      rw [List.takeWhile_cons_of_neg (by simpa using h), List.filter_cons_of_neg (by simpa using h),
        List.filter_eq_nil_iff.mpr hrest]

/-- The last entry is the only one that no entry exceeds. -/
theorem getLast?_eq_some_iff_of_ascending (ascending : Ascending entries) {entry : Int × α} :
    entries.getLast? = some entry ↔ entry ∈ entries ∧ ∀ other ∈ entries, other.1 ≤ entry.1 := by
  constructor
  · intro h
    obtain ⟨before, rfl⟩ := List.getLast?_eq_some_iff.mp h
    obtain ⟨_, _, hlt⟩ := List.pairwise_append.mp ascending
    refine ⟨by simp, fun other ho => ?_⟩
    rcases List.mem_append.mp ho with ho | ho
    · exact Int.le_of_lt (hlt other ho entry (by simp))
    · exact Int.le_of_eq (congrArg Prod.fst (List.mem_singleton.mp ho))
  · rintro ⟨hmem, hmax⟩
    cases h : entries.getLast? with
    | none =>
      rw [List.getLast?_eq_none_iff.mp h] at hmem
      cases hmem
    | some last =>
      obtain ⟨before, rfl⟩ := List.getLast?_eq_some_iff.mp h
      obtain ⟨_, _, hlt⟩ := List.pairwise_append.mp ascending
      rcases List.mem_append.mp hmem with hbefore | hlast
      · have := hlt entry hbefore last (by simp)
        have := hmax last (by simp)
        omega
      · rw [List.mem_singleton.mp hlast]

/-- Setting a value removes the one that its height had, and nothing else. -/
theorem mem_setEntry_iff (ascending : Ascending entries) {height : Int} {value : α}
    {entry : Int × α} :
    entry ∈ setEntry height value entries ↔
      entry = (height, value) ∨ entry ∈ entries ∧ entry.1 ≠ height := by
  induction entries with
  | nil => simp [setEntry]
  | cons first rest ih =>
    obtain ⟨before, later⟩ := List.pairwise_cons.mp ascending
    by_cases hlt : height < first.1
    · -- all heights are greater
      have hne : ∀ e ∈ first :: rest, e.1 ≠ height := by
        intro e he
        rcases List.mem_cons.mp he with rfl | he
        · omega
        · have := before e he
          omega
      rw [setEntry, if_pos hlt, List.mem_cons]
      exact or_congr_right ⟨fun he => ⟨he, hne entry he⟩, And.left⟩
    by_cases heq : height = first.1
    · have hne : ∀ e ∈ rest, e.1 ≠ height := by
        intro e he
        have := before e he
        omega
      rw [setEntry, if_neg hlt, if_pos heq, List.mem_cons, List.mem_cons]
      refine or_congr_right ⟨fun he => ⟨.inr he, hne entry he⟩, ?_⟩
      rintro ⟨rfl | he, hentry⟩
      · exact (hentry heq.symm).elim
      · exact he
    · rw [setEntry, if_neg hlt, if_neg heq, List.mem_cons, List.mem_cons, ih later, or_and_right,
        or_left_comm]
      refine or_congr_right (or_congr_left ⟨fun he => ⟨he, he ▸ Ne.symm heq⟩, And.left⟩)

namespace Timeline

variable {line : Timeline α} {start height : Int} {value : α}

/-! ## What applies at a height -/

/-- What is set at `start` applies at `height`: no later entry is up to there. -/
def Reaches (line : Timeline α) (start height : Int) : Prop :=
  start ≤ height ∧ ∀ entry ∈ line.entries, entry.1 ≤ height → entry.1 ≤ start

instance : Decidable (line.Reaches start height) :=
  inferInstanceAs (Decidable (_ ∧ ∀ entry ∈ line.entries, entry.1 ≤ height → entry.1 ≤ start))

theorem valueAt?_eq_some_iff :
    line.valueAt? height = some value ↔
      ∃ start, (start, value) ∈ line.entries ∧ line.Reaches start height := by
  have hascending : Ascending (line.entries.filter (·.1 ≤ height)) := line.ascending.filter _
  have hlast : ∀ start, (line.entries.filter (·.1 ≤ height)).getLast? = some (start, value) ↔
      (start, value) ∈ line.entries ∧ line.Reaches start height := by
    intro start
    rw [getLast?_eq_some_iff_of_ascending hascending]
    simp only [List.mem_filter, decide_eq_true_eq, and_imp, Reaches, and_assoc]
  rw [valueAt?, takeWhile_eq_filter_of_ascending line.ascending, Option.map_eq_some_iff]
  constructor
  · rintro ⟨⟨start, _⟩, h, rfl⟩
    exact ⟨start, (hlast start).mp h⟩
  · rintro ⟨start, h⟩
    exact ⟨_, (hlast start).mpr h, rfl⟩

theorem reaches_set {later : Int} :
    (line.set start value).Reaches later height ↔
      line.Reaches later height ∧ (start ≤ height → start ≤ later) := by
  unfold Reaches
  rw [and_assoc]
  refine and_congr_right fun _ => ⟨fun h => ⟨?_, ?_⟩, ?_⟩
  · intro entry he hle
    by_cases heq : entry.1 = start
    · exact heq ▸ h (start, value) ((mem_setEntry_iff line.ascending).mpr (.inl rfl)) (heq ▸ hle)
    · exact h entry ((mem_setEntry_iff line.ascending).mpr (.inr ⟨he, heq⟩)) hle
  · exact h (start, value) ((mem_setEntry_iff line.ascending).mpr (.inl rfl))
  · rintro ⟨h, hstart⟩ entry he hle
    rcases (mem_setEntry_iff line.ascending).mp he with rfl | ⟨he, _⟩
    · exact hstart hle
    · exact h entry he hle

/-- A value that is set applies at the heights that it reaches; at all others nothing changes. -/
theorem valueAt?_set :
    (line.set start value).valueAt? height =
      if line.Reaches start height then some value else line.valueAt? height := by
  by_cases h : line.Reaches start height
  · rw [if_pos h, valueAt?_eq_some_iff]
    exact ⟨start, (mem_setEntry_iff line.ascending).mpr (.inl rfl),
      reaches_set.mpr ⟨h, fun _ => Int.le_refl start⟩⟩
  · rw [if_neg h]
    apply Option.ext
    intro v
    rw [valueAt?_eq_some_iff, valueAt?_eq_some_iff]
    refine exists_congr fun k => ?_
    rw [reaches_set]
    constructor
    · rintro ⟨hmem, hreach, _⟩
      rcases (mem_setEntry_iff line.ascending).mp hmem with heq | ⟨hmem, _⟩
      · cases heq
        exact (h hreach).elim
      · exact ⟨hmem, hreach⟩
    · rintro ⟨hmem, hreach⟩
      have hk : k ≠ start := fun heq => h (heq ▸ hreach)
      refine ⟨(mem_setEntry_iff line.ascending).mpr (.inr ⟨hmem, hk⟩), hreach, fun hle => ?_⟩
      -- no entry up to the height is later than `k`, so `start` would reach it if it were later
      refine Int.not_lt.mp fun hlt => h ⟨hle, fun entry he hentry => ?_⟩
      have := hreach.2 entry he hentry
      omega

end Timeline

end DelayedPayout
