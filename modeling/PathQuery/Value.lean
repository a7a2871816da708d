/-
Values that queries read and give.

Functions, lazy values and host objects are references: what they do is up to the host, and a
closure's text and surroundings are kept by the evaluation that made it.

* **`Value.kind`** — how messages name the kind of a value;
* **`Value.isTruthy`** — whether a condition with that value holds;
* **`Value.text`** — the value in joined text;
* **`Value.toNumber?`** — the number that arithmetic takes a value for;
* **`Value.numeric?`** — the number that comparison takes a value for.
-/
import PathQuery.Expr
import PathQuery.Fields

namespace PathQuery

/-- A function: one of the host's, or the closure at a place in the evaluation's table. -/
inductive FunctionRef where
  | host (id : Nat)
  | closure (index : Nat)
deriving DecidableEq, Repr, Inhabited

/-- A value that the host computes each time it is read. -/
structure LazyRef where
  id : Nat
deriving DecidableEq, Repr, Inhabited

/-- An object of the host and the name of its type. -/
structure HostObject where
  id : Nat
  typeName : String
deriving DecidableEq, Repr, Inhabited

inductive Value where
  | null
  | boolean (value : Bool)
  | number (value : Number)
  | string (content : String)
  | array (items : List Value)
  | object (fields : List (String × Value))
  | host (object : HostObject)
  | function (function : FunctionRef)
  | deferred (lazy : LazyRef)
deriving Repr, Inhabited

namespace Value

def integer (n : Int64) : Value := .number (.integer n)

def float (x : Binary64) : Value := .number (.float x)

/-- The integer that counts the members of a list. -/
def ofLength (n : Nat) : Value := .integer (Int64.ofInt n)

def isNull : Value → Bool
  | .null => true
  | _ => false

/-- The kind of a value in messages; an object of the host has its own. -/
def kind : Value → String
  | .null => "null"
  | .boolean _ => "boolean"
  | .number (.integer _) => "integer"
  | .number (.float _) => "float"
  | .string _ => "string"
  | .array _ => "array"
  | .object _ => "object"
  | .host o => o.typeName
  | .function _ => "function"
  | .deferred _ => "lazy"

/-- Whether a condition with this value holds: not null, not false, not zero, not empty and not the
text `0`. -/
def isTruthy : Value → Bool
  | .null => false
  | .boolean b => b
  | .number n => n.isNonzero
  | .string s => s != "" && s != "0"
  | .array items => !items.isEmpty
  | .object fields => !fields.isEmpty
  | .host _ => true
  | .function _ => true
  | .deferred _ => true

/-- The value in joined text; what has no text of its own shows its kind. -/
def text : Value → String
  | .string s => s
  | .number n => n.text
  | .boolean b => if b then "true" else "false"
  | .null => ""
  | v => "<" ++ v.kind ++ ">"

/-- The number that arithmetic takes a value for. -/
def toNumber? : Value → Option Number
  | .number n => some n
  | .boolean b => some (.integer (if b then 1 else 0))
  | .null => some (.integer 0)
  | .string s => readNumber? s
  | _ => none

/-- The number that comparison takes a value for: numbers and the texts of numbers. -/
def numeric? : Value → Option Number
  | .number n => some n
  | .string s => readNumber? s
  | _ => none

/-- A number as a binary64 number. -/
def toBinary64? : Value → Option Binary64
  | .number n => some n.toBinary64
  | _ => none

end Value

/-- The value of a literal. -/
def Literal.value : Literal → Value
  | .null => .null
  | .boolean b => .boolean b
  | .number n => .number n
  | .string s => .string s

end PathQuery
