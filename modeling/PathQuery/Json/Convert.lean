/-
Documents and values.

* **`Json.toValue`** — a document as a value;
* **`Value.toJson`** — a value as a document: lazy values are computed, what has no form of its own
  is written as the text of its kind.
-/
import PathQuery.Evaluation
import PathQuery.Json

namespace PathQuery

namespace Json

/-- An integer beyond the signed 64 bits becomes a float. -/
def numberOfInt (n : Int) : Number :=
  match int64Of? n with
  | some n => .integer n
  | none => .float (.ofInt n)

mutual

/-- A document as a value. -/
def toValue : Json → Value
  | .null => .null
  | .boolean b => .boolean b
  | .integer n => .number (numberOfInt n)
  | .float x => .float x
  | .string s => .string s
  | .array items => .array (itemValues items)
  | .object members => .object (memberValues members)

def itemValues : List Json → List Value
  | [] => []
  | item :: rest => item.toValue :: itemValues rest

def memberValues : List (String × Json) → List (String × Value)
  | [] => []
  | (name, value) :: rest => (name, value.toValue) :: memberValues rest

end

/-- The document for a number; what is not finite has none and becomes null. -/
def ofNumber : Number → Json
  | .integer n => .integer n.toInt
  | .float x => if x.isFinite then .float x else .null

end Json

namespace Value

variable {σ : Type}

mutual

/-- A value as a document; `compute` gives the document of a lazy value. -/
def toJsonWith (compute : LazyRef → Eval σ Json) : Value → Eval σ Json
  | .null => return .null
  | .boolean b => return .boolean b
  | .number n => return .ofNumber n
  | .string s => return .string s
  | .array items => return .array (← itemsToJson compute items)
  | .object fields => return .ofMembers (← fieldsToJson compute fields)
  | .deferred lazy => compute lazy
  | .host o => return .string ("<" ++ o.typeName ++ ">")
  | .function _ => return .string "<function>"

def itemsToJson (compute : LazyRef → Eval σ Json) : List Value → Eval σ (List Json)
  | [] => return []
  | item :: rest => return (← item.toJsonWith compute) :: (← itemsToJson compute rest)

def fieldsToJson (compute : LazyRef → Eval σ Json) :
    List (String × Value) → Eval σ (List (String × Json))
  | [] => return []
  | (name, value) :: rest =>
    return (name, ← value.toJsonWith compute) :: (← fieldsToJson compute rest)

end

/-- A value as a document; `limit` bounds how many lazy values may lie within each other. -/
def toJsonWithin (host : Host σ) : (limit : Nat) → Value → Eval σ Json
  | 0, v => v.toJsonWith fun _ => throw (.depthExceeded 0)
  | limit + 1, v => v.toJsonWith fun lazy => do
    toJsonWithin host limit (← forceValue host (.deferred lazy))

/-- How many lazy values may lie within each other in a document. -/
def maxLazyNesting : Nat := 10000

/-- A value as a document. -/
def toJson (host : Host σ) (v : Value) : Eval σ Json := v.toJsonWithin host maxLazyNesting

end Value

end PathQuery
