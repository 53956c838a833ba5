/-!
A series: values under keys, in the order of the keys. The entries are kept strictly ascending,
so a key has at most one value and two series are equal exactly when they have the same entries.
-/

set_option autoImplicit false

namespace TikzChart

structure Series (α : Type) where
  entries : List (String × α)
  ascending : entries.Pairwise fun first second => first.1 < second.1
deriving DecidableEq

namespace Series

variable {α β : Type}

theorem eq_of_entries {first second : Series α} (same : first.entries = second.entries) :
    first = second := by
  cases first; cases second; simp_all

def empty : Series α := ⟨[], .nil⟩

instance : Inhabited (Series α) := ⟨empty⟩

def insertEntry (key : String) (value : α) : List (String × α) → List (String × α)
  | [] => [(key, value)]
  | entry :: rest =>
    if key < entry.1 then (key, value) :: entry :: rest
    else if key = entry.1 then (key, value) :: rest
    else entry :: insertEntry key value rest

theorem mem_insertEntry {key : String} {value : α} {entries : List (String × α)}
    {entry : String × α} (member : entry ∈ insertEntry key value entries) :
    entry = (key, value) ∨ entry ∈ entries := by
  induction entries with
  | nil => simpa [insertEntry] using member
  | cons head rest ih =>
    rw [insertEntry] at member
    split at member
    · simpa using member
    · split at member
      · rcases List.mem_cons.mp member with same | inRest
        · exact .inl same
        · exact .inr (List.mem_cons_of_mem _ inRest)
      · rcases List.mem_cons.mp member with same | inRest
        · exact .inr (by simp [same])
        · exact (ih inRest).imp id (List.mem_cons_of_mem _)

theorem ascending_insertEntry {key : String} {value : α} {entries : List (String × α)}
    (ascending : entries.Pairwise fun first second => first.1 < second.1) :
    (insertEntry key value entries).Pairwise fun first second => first.1 < second.1 := by
  induction entries with
  | nil => simp [insertEntry]
  | cons head rest ih =>
    obtain ⟨below, restAscending⟩ := List.pairwise_cons.mp ascending
    rw [insertEntry]
    split
    next less =>
      refine List.pairwise_cons.mpr ⟨fun entry member => ?_, ascending⟩
      rcases List.mem_cons.mp member with same | inRest
      · exact same ▸ less
      · exact String.lt_trans less (below entry inRest)
    next notLess =>
      split
      next same =>
        refine List.pairwise_cons.mpr ⟨fun entry member => ?_, restAscending⟩
        exact same ▸ below entry member
      next different =>
        refine List.pairwise_cons.mpr ⟨fun entry member => ?_, ih restAscending⟩
        rcases mem_insertEntry member with same | inRest
        · have above : head.1 ≤ key := String.not_lt.mp notLess
          rw [same]
          exact String.not_le.mp fun under => different (String.le_antisymm under above)
        · exact below entry inRest

def insert (series : Series α) (key : String) (value : α) : Series α :=
  ⟨insertEntry key value series.entries, ascending_insertEntry series.ascending⟩

/-- The entries from first to last; a later value of a key takes the place of an earlier one. -/
def ofList (entries : List (String × α)) : Series α :=
  entries.foldl (fun series entry => series.insert entry.1 entry.2) empty

def get? (series : Series α) (key : String) : Option α := series.entries.lookup key

def contains (series : Series α) (key : String) : Bool := (series.get? key).isSome

def filterKeys (series : Series α) (test : String → Bool) : Series α :=
  ⟨series.entries.filter fun entry => test entry.1, series.ascending.filter _⟩

def erase (series : Series α) (key : String) : Series α := series.filterKeys (· != key)

def map (series : Series α) (f : α → β) : Series β :=
  ⟨series.entries.map fun entry => (entry.1, f entry.2), List.pairwise_map.mpr series.ascending⟩

def keys (series : Series α) : List String := series.entries.map Prod.fst

def size (series : Series α) : Nat := series.entries.length

def isEmpty (series : Series α) : Bool := series.entries.isEmpty

end Series

end TikzChart
