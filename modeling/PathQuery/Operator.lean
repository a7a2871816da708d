/-
Operators of the query language and how they are written.
-/

namespace PathQuery

inductive ArithmeticOp where
  | add
  | subtract
  | multiply
  | divide
  | modulo
deriving DecidableEq, Repr, Inhabited

inductive ComparisonOp where
  | equal
  | identical
  | notEqual
  | notIdentical
  | less
  | lessEqual
  | greater
  | greaterEqual
deriving DecidableEq, Repr, Inhabited

inductive LogicalOp where
  | and
  | or
deriving DecidableEq, Repr, Inhabited

def ArithmeticOp.symbol : ArithmeticOp → String
  | .add => "+"
  | .subtract => "-"
  | .multiply => "*"
  | .divide => "/"
  | .modulo => "%"

def ComparisonOp.symbol : ComparisonOp → String
  | .equal => "=="
  | .identical => "==="
  | .notEqual => "!="
  | .notIdentical => "!=="
  | .less => "<"
  | .lessEqual => "<="
  | .greater => ">"
  | .greaterEqual => ">="

def LogicalOp.symbol : LogicalOp → String
  | .and => "&&"
  | .or => "||"

end PathQuery
