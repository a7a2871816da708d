/-
Expressions: the trees that queries stand for.

* **`Expr`** — the tree;
* **`Expr.same`** — equality of trees, literal numbers of one kind compared by value.

Design notes: a member step with arguments and one without are two constructors, and so are the
two conditionals, so that no node holds an optional child.
-/
import PathQuery.Number
import PathQuery.Operator

namespace PathQuery

/-- A scalar written in a query. -/
inductive Literal where
  | null
  | boolean (value : Bool)
  | number (value : Number)
  | string (content : String)
deriving DecidableEq, Repr, Inhabited

/-- The tree of a query.

`arguments` is an argument list on its own, which has no written form as a query.  `elvis` is the
conditional `condition ?: otherwise`, whose value is that of the condition if that holds.  A member
step is null-safe if it answers null for a null object. -/
inductive Expr where
  | literal (value : Literal)
  | variable (name : String)
  | list (elements : List Expr)
  | arguments (elements : List Expr)
  | member (object : Expr) (name : String) (nullSafe : Bool)
  | memberCall (object : Expr) (name : String) (arguments : List Expr) (nullSafe : Bool)
  | call (name : String) (arguments : List Expr)
  | arithmetic (op : ArithmeticOp) (left right : Expr)
  | comparison (op : ComparisonOp) (left right : Expr)
  | logical (op : LogicalOp) (left right : Expr)
  | coalesce (left right : Expr)
  | ternary (condition whenTrue otherwise : Expr)
  | elvis (condition otherwise : Expr)
  | closure (params : List String) (body : Expr)
deriving Repr, Inhabited

/-- Equality of literals; zeros of either sign are the same float, a NaN is not even itself. -/
def Literal.same : Literal → Literal → Bool
  | .number (.float x), .number (.float y) => x.eqv y
  | a, b => a == b

namespace Expr

mutual

/-- Equality of trees. -/
def same : Expr → Expr → Bool
  | .literal a, .literal b => a.same b
  | .variable a, .variable b => a == b
  | .list as, .list bs => sameList as bs
  | .arguments as, .arguments bs => sameList as bs
  | .member a m s, .member b n t => same a b && m == n && s == t
  | .memberCall a m as s, .memberCall b n bs t => same a b && m == n && sameList as bs && s == t
  | .call m as, .call n bs => m == n && sameList as bs
  | .arithmetic o a b, .arithmetic p c d => o == p && same a c && same b d
  | .comparison o a b, .comparison p c d => o == p && same a c && same b d
  | .logical o a b, .logical p c d => o == p && same a c && same b d
  | .coalesce a b, .coalesce c d => same a c && same b d
  | .ternary a b c, .ternary d e f => same a d && same b e && same c f
  | .elvis a b, .elvis c d => same a c && same b d
  | .closure ps a, .closure qs b => ps == qs && same a b
  | _, _ => false

/-- Equality of lists of trees, place by place. -/
def sameList : List Expr → List Expr → Bool
  | [], [] => true
  | a :: as, b :: bs => same a b && sameList as bs
  | _, _ => false

end

/-- Whether a tree is a closure. -/
def isClosure : Expr → Bool
  | .closure .. => true
  | _ => false

/-- Whether a tree is a literal number. -/
def isNumber : Expr → Bool
  | .literal (.number _) => true
  | _ => false

end Expr

end PathQuery
