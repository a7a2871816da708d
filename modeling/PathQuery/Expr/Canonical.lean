/-
The canonical text of an expression.

Every binary operation and every conditional stands in parentheses, so that the text shows how a
query is grouped.

* **`Expr.canonical`** — the text.

Design notes: a closure reaches as far to the right as it can, so it gets parentheses of its own as
an operand; a number gets them as the object of a member step, where its text would take in the
dot.
-/
import PathQuery.Expr

namespace PathQuery

/-- How a character is written inside single quotes. -/
def escapeChar (c : Char) : List Char :=
  if c = '\'' ∨ c = '\\' then ['\\', c]
  else if c = '\n' then ['\\', 'n']
  else if c = '\t' then ['\\', 't']
  else if c = '\r' then ['\\', 'r']
  else [c]

/-- The text of a string in a query. -/
def quoteString (s : String) : String := "'" ++ String.ofList (s.toList.flatMap escapeChar) ++ "'"

/-- The text of a float in a query: a finite number has a point. -/
def floatLiteral (x : Binary64) : String :=
  let text := x.text
  if text.toList.contains '.' || !x.isFinite then text else text ++ ".0"

/-- The text of a literal. -/
def Literal.canonical : Literal → String
  | .null => "null"
  | .boolean b => if b then "true" else "false"
  | .number (.integer n) => toString n.toInt
  | .number (.float x) => floatLiteral x
  | .string s => quoteString s

/-- Puts a text in parentheses if asked to. -/
def parenthesize (needed : Bool) (text : String) : String :=
  if needed then "(" ++ text ++ ")" else text

/-- The mark of a member step. -/
def dotText (nullSafe : Bool) : String := if nullSafe then "?." else "."

namespace Expr

mutual

/-- The canonical text of an expression. -/
def canonical : Expr → String
  | .literal value => value.canonical
  | .variable name => name
  | .list elements => "[" ++ canonicalList elements ++ "]"
  | .arguments elements => "(" ++ canonicalList elements ++ ")"
  | .member object name nullSafe =>
    parenthesize (object.isNumber || object.isClosure) (canonical object) ++
      dotText nullSafe ++ name
  | .memberCall object name args nullSafe =>
    parenthesize (object.isNumber || object.isClosure) (canonical object) ++ dotText nullSafe ++
      name ++ "(" ++ canonicalList args ++ ")"
  | .call name args => name ++ "(" ++ canonicalList args ++ ")"
  | .arithmetic op left right =>
    "(" ++ parenthesize left.isClosure (canonical left) ++ " " ++ op.symbol ++ " " ++
      parenthesize right.isClosure (canonical right) ++ ")"
  | .comparison op left right =>
    "(" ++ parenthesize left.isClosure (canonical left) ++ " " ++ op.symbol ++ " " ++
      parenthesize right.isClosure (canonical right) ++ ")"
  | .logical op left right =>
    "(" ++ parenthesize left.isClosure (canonical left) ++ " " ++ op.symbol ++ " " ++
      parenthesize right.isClosure (canonical right) ++ ")"
  | .coalesce left right =>
    "(" ++ parenthesize left.isClosure (canonical left) ++ " ?? " ++
      parenthesize right.isClosure (canonical right) ++ ")"
  | .ternary condition whenTrue otherwise =>
    "(" ++ parenthesize condition.isClosure (canonical condition) ++ " ? " ++
      parenthesize whenTrue.isClosure (canonical whenTrue) ++ " : " ++ canonical otherwise ++ ")"
  | .elvis condition otherwise =>
    "(" ++ parenthesize condition.isClosure (canonical condition) ++ " ?: " ++
      canonical otherwise ++ ")"
  | .closure params body => "fn(" ++ ", ".intercalate params ++ ") => " ++ canonical body

/-- The texts of expressions, with commas between them. -/
def canonicalList : List Expr → String
  | [] => ""
  | e :: rest => canonical e ++ canonicalRest rest

/-- The texts of expressions, each behind a comma. -/
def canonicalRest : List Expr → String
  | [] => ""
  | e :: rest => ", " ++ canonical e ++ canonicalRest rest

end

end Expr

end PathQuery
