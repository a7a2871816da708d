/-
Ordered maps from names to values, as lists of pairs with distinct names.

* **`Fields.insert`** — replaces the value of a name where it stands, or puts a new name at the end;
* **`Fields.insertAll`, `Fields.ofList`** — several insertions in order.

Reading is `List.lookup`.
-/

namespace PathQuery.Fields

variable {α : Type}

/-- Gives `name` the value `value`; a known name keeps its place. -/
def insert (name : String) (value : α) : List (String × α) → List (String × α)
  | [] => [(name, value)]
  | (other, old) :: rest =>
    if name == other then (other, value) :: rest else (other, old) :: insert name value rest

/-- Inserts the pairs of `added` in order. -/
def insertAll (fields added : List (String × α)) : List (String × α) :=
  added.foldl (fun fields (name, value) => insert name value fields) fields

/-- The map with the given pairs; a repeated name has its last value in its first place. -/
def ofList (pairs : List (String × α)) : List (String × α) := insertAll [] pairs

end PathQuery.Fields
