/-!
Sorting by an order that is given as a test. The items are inserted one by one, the last one first,
and items that the test puts before each other keep their places.
-/

namespace SchemaStubs

variable {α : Type}

/-- Puts an item before the first one that it may stand before. -/
def insertBy (precedes : α → α → Bool) (item : α) : List α → List α
  | [] => [item]
  | first :: rest =>
      if precedes item first then item :: first :: rest
      else first :: insertBy precedes item rest

def sortBy (precedes : α → α → Bool) : List α → List α
  | [] => []
  | item :: rest => insertBy precedes item (sortBy precedes rest)

variable (precedes : α → α → Bool) (item : α)

@[simp] theorem insert_by_nil : insertBy precedes item [] = [item] := rfl

theorem insert_by_cons (first : α) (rest : List α) :
    insertBy precedes item (first :: rest) =
      if precedes item first then item :: first :: rest
      else first :: insertBy precedes item rest := rfl

@[simp] theorem sort_by_nil : sortBy precedes [] = [] := rfl

theorem sort_by_cons (rest : List α) :
    sortBy precedes (item :: rest) = insertBy precedes item (sortBy precedes rest) := rfl

-- what a sorted list is built from is seldom of use, so it is unfolded by these equations only
attribute [irreducible] insertBy sortBy

end SchemaStubs
