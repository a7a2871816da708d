/-
Comparison of values.

* **`order`** — the order of two values: numbers and texts of numbers by value, other texts by code
  point;
* **`comparison`** — an operator applied to two values.
-/
import PathQuery.EvalError
import PathQuery.Value.Equality

namespace PathQuery

/-- The order of two values; none if a NaN is involved. -/
def order (op : ComparisonOp) (left right : Value) : Except EvalError (Option Ordering) :=
  match left.numeric?, right.numeric? with
  | some a, some b => .ok (a.compare? b)
  | _, _ =>
    match left, right with
    | .string a, .string b => .ok (some (compare a b))
    | _, _ => .error (.typeFault (.notComparable left.kind op right.kind))

/-- Whether an order satisfies one of the four order operators. -/
def ComparisonOp.holds : ComparisonOp → Ordering → Bool
  | .less, o => o == .lt
  | .lessEqual, o => o != .gt
  | .greater, o => o == .gt
  | .greaterEqual, o => o != .lt
  | _, _ => false

/-- Whether two values satisfy a comparison operator. -/
def compares (op : ComparisonOp) (left right : Value) : Except EvalError Bool :=
  match op with
  | .equal => .ok (left.looselyEqual right)
  | .notEqual => .ok (!left.looselyEqual right)
  | .identical => .ok (left.identical right)
  | .notIdentical => .ok (!left.identical right)
  | _ => (order op left right).map fun o => o.any op.holds

/-- Applies a comparison operator to two values. -/
def comparison (op : ComparisonOp) (left right : Value) : Except EvalError Value :=
  (compares op left right).map .boolean

end PathQuery
