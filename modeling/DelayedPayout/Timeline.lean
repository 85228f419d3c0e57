/-!
Values that apply from a height on, until a greater height brings the next one.
-/

namespace DelayedPayout

/-- The entries after setting the value of a height: in their order, and in place of an older value. -/
def setEntry {α : Type} (height : Int) (value : α) : List (Int × α) → List (Int × α)
  | [] => [(height, value)]
  | entry :: rest =>
    if height < entry.1 then (height, value) :: entry :: rest
    else if height = entry.1 then (height, value) :: rest
    else entry :: setEntry height value rest

theorem mem_setEntry {α : Type} {height : Int} {value : α} {entries : List (Int × α)}
    {entry : Int × α} (h : entry ∈ setEntry height value entries) :
    entry = (height, value) ∨ entry ∈ entries := by
  induction entries with
  | nil => simpa [setEntry] using h
  | cons first rest ih =>
    rw [setEntry] at h
    split at h
    · simpa using h
    · split at h
      · rcases List.mem_cons.1 h with h | h
        · exact .inl h
        · exact .inr (List.mem_cons_of_mem _ h)
      · rcases List.mem_cons.1 h with h | h
        · exact .inr (h ▸ List.mem_cons_self)
        · exact (ih h).imp_right (List.mem_cons_of_mem _)

/-- Heights grow from entry to entry. -/
def Ascending {α : Type} (entries : List (Int × α)) : Prop :=
  entries.Pairwise fun a b => a.1 < b.1

theorem ascending_setEntry {α : Type} (height : Int) (value : α) {entries : List (Int × α)}
    (ascending : Ascending entries) : Ascending (setEntry height value entries) := by
  induction entries with
  | nil => exact List.pairwise_singleton _ _
  | cons first rest ih =>
    obtain ⟨before, later⟩ := List.pairwise_cons.1 ascending
    by_cases hlt : height < first.1
    · rw [setEntry, if_pos hlt]
      refine List.pairwise_cons.2 ⟨fun entry he => ?_, ascending⟩
      rcases List.mem_cons.1 he with rfl | he
      · exact hlt
      · exact Int.lt_trans hlt (before entry he)
    · by_cases heq : height = first.1
      · rw [setEntry, if_neg hlt, if_pos heq]
        exact List.pairwise_cons.2 ⟨fun entry he => heq ▸ before entry he, later⟩
      · rw [setEntry, if_neg hlt, if_neg heq]
        refine List.pairwise_cons.2 ⟨fun entry he => ?_, ih later⟩
        rcases mem_setEntry he with rfl | he
        · have hbefore : first.1 < height := by omega
          exact hbefore
        · exact before entry he

/-- Values by the height from which they apply, in ascending order. -/
structure Timeline (α : Type) where
  entries : List (Int × α)
  ascending : Ascending entries

namespace Timeline

variable {α : Type}

def empty : Timeline α := ⟨[], List.Pairwise.nil⟩

def set (line : Timeline α) (height : Int) (value : α) : Timeline α :=
  ⟨setEntry height value line.entries, ascending_setEntry height value line.ascending⟩

/-- The timeline of a list of heights and values, the last value of a height counting. -/
def ofList (entries : List (Int × α)) : Timeline α :=
  entries.foldl (fun line entry => line.set entry.1 entry.2) empty

def isSetAt (line : Timeline α) (height : Int) : Bool :=
  line.entries.any fun entry => entry.1 == height

/-- The value that applies at a height: the one of the greatest height up to it. -/
def valueAt? (line : Timeline α) (height : Int) : Option α :=
  (line.entries.takeWhile (·.1 ≤ height)).getLast?.map Prod.snd

end Timeline

end DelayedPayout
