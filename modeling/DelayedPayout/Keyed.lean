/-!
Tables that remember in which order their keys first arrived. Writing to a key that is present replaces
its value and moves nothing.
-/

namespace DelayedPayout

/-- The entries after a write: in place if the key is there, at the end otherwise. -/
def putEntry {κ α : Type} [DecidableEq κ] (key : κ) (value : α) : List (κ × α) → List (κ × α)
  | [] => [(key, value)]
  | entry :: rest =>
    if entry.1 = key then (key, value) :: rest else entry :: putEntry key value rest

theorem mem_keys_putEntry {κ α : Type} [DecidableEq κ] (key k : κ) (value : α)
    (entries : List (κ × α)) :
    k ∈ (putEntry key value entries).map Prod.fst ↔ k = key ∨ k ∈ entries.map Prod.fst := by
  induction entries with
  | nil => simp [putEntry]
  | cons entry rest ih =>
    by_cases h : entry.1 = key
    · rw [putEntry, if_pos h]
      simp [h]
    · rw [putEntry, if_neg h, List.map_cons, List.mem_cons, ih, List.map_cons, List.mem_cons]
      constructor <;> rintro (hk | hk | hk) <;> simp [hk]

theorem nodup_keys_putEntry {κ α : Type} [DecidableEq κ] (key : κ) (value : α)
    {entries : List (κ × α)} (distinct : (entries.map Prod.fst).Nodup) :
    ((putEntry key value entries).map Prod.fst).Nodup := by
  induction entries with
  | nil => simp [putEntry]
  | cons entry rest ih =>
    rw [List.map_cons, List.nodup_cons] at distinct
    by_cases h : entry.1 = key
    · rw [putEntry, if_pos h, List.map_cons, List.nodup_cons, ← h]
      exact distinct
    · rw [putEntry, if_neg h, List.map_cons, List.nodup_cons, mem_keys_putEntry]
      exact ⟨fun hk => hk.elim h distinct.1, ih distinct.2⟩

/-- Entries in the order in which their keys first arrived, no two with one key. -/
structure Keyed (κ α : Type) where
  entries : List (κ × α)
  distinct : (entries.map Prod.fst).Nodup

namespace Keyed

variable {κ α : Type}

def empty : Keyed κ α := ⟨[], List.nodup_nil⟩

def put [DecidableEq κ] (table : Keyed κ α) (key : κ) (value : α) : Keyed κ α :=
  ⟨putEntry key value table.entries, nodup_keys_putEntry key value table.distinct⟩

def ofList [DecidableEq κ] (entries : List (κ × α)) : Keyed κ α :=
  entries.foldl (fun table entry => table.put entry.1 entry.2) empty

def values (table : Keyed κ α) : List α := table.entries.map Prod.snd

end Keyed

end DelayedPayout
