/-
JSON documents.

* **`Json`** — a document; the members of an object are sorted by name, with one per name;
* **`Json.setMember`** — puts a member in its place, instead of an earlier one of its name.

Design notes: an integer is one that fits 64 bits with or without a sign; all other numbers are
finite floats.
-/
import PathQuery.Number.Binary64

namespace PathQuery

inductive Json where
  | null
  | boolean (value : Bool)
  | integer (value : Int)
  | float (value : Binary64)
  | string (content : String)
  | array (items : List Json)
  | object (members : List (String × Json))
deriving Repr, Inhabited

namespace Json

/-- Puts a member among sorted ones. -/
def setMember (name : String) (value : Json) : List (String × Json) → List (String × Json)
  | [] => [(name, value)]
  | (other, old) :: rest =>
    match compare name other with
    | .lt => (name, value) :: (other, old) :: rest
    | .eq => (name, value) :: rest
    | .gt => (other, old) :: setMember name value rest

/-- The object with the given members; the last one of a name counts. -/
def ofMembers (members : List (String × Json)) : Json :=
  .object (members.foldl (fun sorted (name, value) => setMember name value sorted) [])

end Json

end PathQuery
