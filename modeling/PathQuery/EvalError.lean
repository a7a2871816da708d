/-
What can go wrong while a query is evaluated.

* **`EvalError`** — the causes;
* **`EvalError.message`** — their wording.
-/
import PathQuery.Operator

namespace PathQuery

/-- Values of a kind that an operation cannot take. -/
inductive TypeFault where
  | notANumber (kind : String) (op : ArithmeticOp)
  | notComparable (left : String) (op : ComparisonOp) (right : String)
  | notASelector (method kind : String)
  | missingSelector (method : String)
  | missingMemberName
  | notNumeric (method kind : String)
  /-- Sorting is broken off, since the keys have turned out to be in no order. -/
  | noTotalOrder
deriving DecidableEq, Repr

def TypeFault.message : TypeFault → String
  | .notANumber kind op => "cannot use " ++ kind ++ " as a number in '" ++ op.symbol ++ "'"
  | .notComparable left op right =>
    "cannot compare " ++ left ++ " " ++ op.symbol ++ " " ++ right ++
      " (comparison requires numbers or strings)"
  | .notASelector method kind =>
    "." ++ method ++ "() expects a function or member name, got " ++ kind
  | .missingSelector method => "." ++ method ++ "() requires a predicate argument"
  | .missingMemberName => ".pluck() requires a member name"
  | .notNumeric method kind => "." ++ method ++ "() requires numeric values, got " ++ kind
  | .noTotalOrder =>
    "user-provided comparison function does not correctly implement a total order"

inductive EvalError where
  | unknownGlobal (name : String)
  | invalidMemberTarget (member kind : String)
  | missingIdentifier (name : String)
  | notCallable (member kind : String)
  | typeFault (fault : TypeFault)
  | divisionByZero
  | depthExceeded (limit : Nat)
  | host (text : String)
deriving DecidableEq, Repr

def EvalError.message : EvalError → String
  | .unknownGlobal name => "unknown global function '" ++ name ++ "'"
  | .invalidMemberTarget member kind => "cannot access member '" ++ member ++ "' on " ++ kind
  | .missingIdentifier name => "unknown identifier '" ++ name ++ "'"
  | .notCallable member kind =>
    "member '" ++ member ++ "' is a " ++ kind ++ " and cannot be called"
  | .typeFault fault => "type error: " ++ fault.message
  | .divisionByZero => "division by zero"
  | .depthExceeded limit => "maximum evaluation depth of " ++ toString limit ++ " exceeded"
  | .host text => text

end PathQuery
