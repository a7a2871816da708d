/-
The two equalities of values and the order behind sorting.

* **`Value.identical`** — strict equality: the same kind and the same value, references by identity;
* **`Value.looselyEqual`** — null equals what is falsy, booleans compare by truth, numbers and texts
  of numbers by value, arrays and objects member by member;
* **`Value.rankAgainst`** — the order used by sorting and by the smallest and largest element.
-/
import PathQuery.Value

namespace PathQuery

/-- Equality of numbers of one kind. -/
def Number.identical : Number → Number → Bool
  | .integer m, .integer n => m == n
  | .float x, .float y => x.eqv y
  | _, _ => false

namespace Value

mutual

/-- Strict equality.  The order of an object's members does not matter. -/
def identical : Value → Value → Bool
  | .null, .null => true
  | .boolean a, .boolean b => a == b
  | .number a, .number b => a.identical b
  | .string a, .string b => a == b
  | .array as, .array bs => identicalItems as bs
  | .object as, .object bs => as.length == bs.length && identicalFields as bs
  | .host a, .host b => a.id == b.id
  | .function a, .function b => a == b
  | .deferred a, .deferred b => a == b
  | _, _ => false

/-- Strict equality of arrays, place by place. -/
def identicalItems : List Value → List Value → Bool
  | [], [] => true
  | a :: as, b :: bs => identical a b && identicalItems as bs
  | _, _ => false

/-- Whether each member has a strictly equal one under its name in `others`. -/
def identicalFields : List (String × Value) → List (String × Value) → Bool
  | [], _ => true
  | (name, a) :: rest, others =>
    (match others.lookup name with
      | some b => identical a b
      | none => false) && identicalFields rest others

end

/-- Whether two texts are loosely equal: as numbers if both are texts of numbers. -/
def looselyEqualTexts (a b : String) : Bool :=
  match readNumber? a, readNumber? b with
  | some x, some y => x.eqv y
  | _, _ => a == b

mutual

/-- Loose equality. -/
def looselyEqual : Value → Value → Bool
  | .null, v => !v.isTruthy
  | v, .null => !v.isTruthy
  | .boolean b, v => b == v.isTruthy
  | v, .boolean b => b == v.isTruthy
  | .string a, .string b => looselyEqualTexts a b
  | .array as, .array bs => looselyEqualItems as bs
  | .object as, .object bs => as.length == bs.length && looselyEqualFields as bs
  | a, b =>
    match a.numeric?, b.numeric? with
    | some x, some y => x.eqv y
    | _, _ => identical a b

/-- Loose equality of arrays, place by place. -/
def looselyEqualItems : List Value → List Value → Bool
  | [], [] => true
  | a :: as, b :: bs => looselyEqual a b && looselyEqualItems as bs
  | _, _ => false

/-- Whether each member has a loosely equal one under its name in `others`. -/
def looselyEqualFields : List (String × Value) → List (String × Value) → Bool
  | [], _ => true
  | (name, a) :: rest, others =>
    (match others.lookup name with
      | some b => looselyEqual a b
      | none => false) && looselyEqualFields rest others

end

/-- The order used by sorting: numbers by value, strings by code point, false before true.  Values
of different kinds, and a NaN and any number, rank equal. -/
def rankAgainst : Value → Value → Ordering
  | .number a, .number b => (a.compare? b).getD .eq
  | .string a, .string b => compare a b
  | .boolean a, .boolean b => compare a.toNat b.toNat
  | _, _ => .eq

end Value

end PathQuery
