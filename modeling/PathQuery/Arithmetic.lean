/-
Arithmetic on values.

Integers stay integers where the result is one that fits; floats give floats; an integer and a
float meet as decimals, so that the result is whole where it should be.

* **`arithmetic`** — an operator applied to two values;
* **`Operation.apply`** — one of the four operations applied to two numbers;
* **`remainder`** — the remainder of the truncated operands.
-/
import PathQuery.EvalError
import PathQuery.Number.Decimal
import PathQuery.Value

namespace PathQuery

/-- One of the four operations, on each kind of number. -/
structure Operation where
  exact : Int → Int → Option Int
  decimal : (D : DecimalSystem) → D.Carrier → D.Carrier → Option D.Carrier
  float : Binary64 → Binary64 → Binary64

namespace Operation

def addition : Operation := ⟨fun m n => some (m + n), DecimalSystem.add, (· + ·)⟩

def subtraction : Operation := ⟨fun m n => some (m - n), DecimalSystem.sub, (· - ·)⟩

def multiplication : Operation :=
  ⟨fun m n => some (m * n), DecimalSystem.mul, (· * ·)⟩

/-- Division; of integers it is exact only if nothing remains. -/
def division : Operation :=
  ⟨fun m n => if m.tmod n = 0 then some (m.tdiv n) else none, DecimalSystem.div, (· / ·)⟩

/-- The operation on the two numbers as floats. -/
def onFloats (o : Operation) (a b : Number) : Number := .float (o.float a.toBinary64 b.toBinary64)

/-- The operation on an integer and a float, through decimals. -/
def mixed (D : DecimalSystem) (o : Operation) (a b : Number) (x y : Option D.Carrier) : Number :=
  match x, y with
  | some x, some y =>
    match o.decimal D x y with
    | some d =>
      if D.isWhole d then
        match int64Of? (D.whole d) with
        | some n => .integer n
        | none => o.onFloats a b
      else .float (D.toBinary64 d)
    | none => o.onFloats a b
  | _, _ => o.onFloats a b

/-- The operation on two numbers. -/
def apply (D : DecimalSystem) (o : Operation) : Number → Number → Number
  | .integer m, .integer n =>
    match (o.exact m.toInt n.toInt).bind int64Of? with
    | some r => .integer r
    | none => o.onFloats (.integer m) (.integer n)
  | .float x, .float y => .float (o.float x y)
  | .integer m, .float y =>
    o.mixed D (.integer m) (.float y) (some (D.ofInt m.toInt)) (D.ofBinary64 y)
  | .float x, .integer n =>
    o.mixed D (.float x) (.integer n) (D.ofBinary64 x) (some (D.ofInt n.toInt))

end Operation

/-- The 64-bit integer next to `n`. -/
def clamp (n : Int) : Int := max (-(twoPow 63 : Int)) (min n (twoPow 63 - 1))

/-- The whole part of a number, held within 64 bits; zero for a NaN. -/
def Number.truncate : Number → Int
  | .integer n => n.toInt
  | .float x => if x.isNaN then 0 else clamp x.truncate

/-- The remainder of the truncated operands, with the sign of the first; none if the second
truncates to zero. -/
def remainder (a b : Number) : Option Number :=
  if b.truncate = 0 then none else some (.integer (Int64.ofInt (a.truncate.tmod b.truncate)))

/-- The number that an operand stands for. -/
def operand (op : ArithmeticOp) (v : Value) : Except EvalError Number :=
  match v.toNumber? with
  | some n => .ok n
  | none => .error (.typeFault (.notANumber v.kind op))

/-- Applies an arithmetic operator to two values. -/
def arithmetic (op : ArithmeticOp) (left right : Value) : Except EvalError Value := do
  let a ← operand op left
  let b ← operand op right
  match op with
  | .add => return .number (Operation.addition.apply Decimal.system a b)
  | .subtract => return .number (Operation.subtraction.apply Decimal.system a b)
  | .multiply => return .number (Operation.multiplication.apply Decimal.system a b)
  | .divide =>
    if b.isNonzero then return .number (Operation.division.apply Decimal.system a b)
    else throw .divisionByZero
  | .modulo =>
    match remainder a b with
    | some r => return .number r
    | none => throw .divisionByZero

end PathQuery
