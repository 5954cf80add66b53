/-!
Finite tables: a list of keys with their values in the order the keys were first set. Setting a key
again keeps its place.
-/

namespace SchemaStubs

structure Table (κ ν : Type) where
  entries : List (κ × ν) := []
  deriving Repr, Inhabited

namespace Table

variable {κ ν : Type} [DecidableEq κ]

def empty : Table κ ν :=
  ⟨[]⟩

def get? (table : Table κ ν) (key : κ) : Option ν :=
  table.entries.lookup key

def contains (table : Table κ ν) (key : κ) : Bool :=
  (table.get? key).isSome

def keys (table : Table κ ν) : List κ :=
  table.entries.map Prod.fst

def setIn (key : κ) (value : ν) : List (κ × ν) → List (κ × ν)
  | [] => [(key, value)]
  | (other, old) :: rest =>
      if key = other then (key, value) :: rest else (other, old) :: setIn key value rest

def set (table : Table κ ν) (key : κ) (value : ν) : Table κ ν :=
  ⟨setIn key value table.entries⟩

theorem lookup_set_in (key other : κ) (value : ν) (entries : List (κ × ν)) :
    (setIn key value entries).lookup other =
      if other = key then some value else entries.lookup other := by
  induction entries with
  | nil =>
      by_cases same : other = key
      · simp [setIn, same]
      · simp [setIn, List.lookup_cons, beq_eq_false_iff_ne.2 same, same]
  | cons entry rest induction =>
      obtain ⟨first, old⟩ := entry
      by_cases here : key = first
      · subst here
        by_cases same : other = key
        · simp [setIn, same]
        · simp [setIn, List.lookup_cons, beq_eq_false_iff_ne.2 same, same]
      · by_cases same : other = first
        · subst same
          simp [setIn, here, Ne.symm here]
        · simp [setIn, here, List.lookup_cons, beq_eq_false_iff_ne.2 same, induction]

@[simp] theorem get?_set (table : Table κ ν) (key other : κ) (value : ν) :
    (table.set key value).get? other = if other = key then some value else table.get? other :=
  lookup_set_in key other value table.entries

theorem contains_iff {table : Table κ ν} {key : κ} : table.contains key = true ↔ key ∈ table.keys := by
  unfold contains get? keys
  rw [List.lookup_isSome_iff]
  simp

@[simp] theorem get?_empty (key : κ) : (empty : Table κ ν).get? key = none :=
  rfl

theorem map_fst_set_in (key : κ) (value : ν) (entries : List (κ × ν)) :
    (setIn key value entries).map Prod.fst =
      if key ∈ entries.map Prod.fst then entries.map Prod.fst
      else entries.map Prod.fst ++ [key] := by
  induction entries with
  | nil => simp [setIn]
  | cons entry rest induction =>
      obtain ⟨other, old⟩ := entry
      by_cases same : key = other
      · simp [setIn, same]
      · rw [setIn, if_neg same, List.map_cons, induction]
        by_cases known : key ∈ rest.map Prod.fst
        · have inside : key ∈ ((other, old) :: rest).map Prod.fst := List.mem_cons_of_mem _ known
          rw [if_pos known, if_pos inside, List.map_cons]
        · have unknown : key ∉ ((other, old) :: rest).map Prod.fst := by
            simpa [same] using known
          rw [if_neg known, if_neg unknown, List.map_cons, List.cons_append]

theorem keys_set (table : Table κ ν) (key : κ) (value : ν) : (table.set key value).keys =
    if key ∈ table.keys then table.keys else table.keys ++ [key] :=
  map_fst_set_in key value table.entries

theorem entries_set_of_none {table : Table κ ν} {key : κ} (absent : table.get? key = none)
    (value : ν) : (table.set key value).entries = table.entries ++ [(key, value)] := by
  obtain ⟨entries⟩ := table
  have others : ∀ entry ∈ entries, key ≠ entry.1 := by
    intro entry member same
    have missed := List.lookup_eq_none_iff.mp absent entry member
    simp [same] at missed
  change setIn key value entries = entries ++ [(key, value)]
  clear absent
  induction entries with
  | nil => rfl
  | cons entry rest induction =>
      rw [List.forall_mem_cons] at others
      obtain ⟨other, old⟩ := entry
      rw [setIn, if_neg others.1, induction others.2, List.cons_append]

end Table

end SchemaStubs
