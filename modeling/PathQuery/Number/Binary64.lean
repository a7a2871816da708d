/-
Binary64 numbers as bit patterns.

A number is its 64-bit pattern: sign, eleven exponent bits, fifty-two fraction bits.  Every finite
magnitude is a whole number of *units* of `2 ^ -1074`, the distance between the two smallest
magnitudes, so that conversion, comparison and rounding are exact arithmetic on natural numbers:

* **`units`** — the magnitude of a finite number, counted in units;
* **`nearest`** — the number nearest to a fraction `num / den`, a half going to the even neighbour;
* **`rank`** — the place of a number in the order of all numbers, both zeros at place `0`;
* **`truncate`** — the whole part, as an integer.

Design notes: the four operations of arithmetic are those of `Float`; everything that decides a
branch or a text goes through `units`, `rank` and `nearest`.
-/
import PathQuery.Number.Power

namespace PathQuery

/-- A binary64 number, held as its bit pattern. -/
structure Binary64 where
  bits : UInt64
deriving DecidableEq, Repr, Inhabited

namespace Binary64

/-! ### Fields -/

/-- The pattern without its sign bit. -/
def magnitudeBits (x : Binary64) : Nat := x.bits.toNat % twoPow 63

/-- The sign bit. -/
def isNegative (x : Binary64) : Bool := decide (twoPow 63 ≤ x.bits.toNat)

/-- The exponent field. -/
def exponentBits (x : Binary64) : Nat := x.magnitudeBits / twoPow 52

/-- The fraction field. -/
def fractionBits (x : Binary64) : Nat := x.magnitudeBits % twoPow 52

/-- The pattern of positive infinity. -/
def infinityBits : Nat := 2047 * twoPow 52

/-- Not a number: the exponent field is full and the fraction is not zero. -/
def isNaN (x : Binary64) : Bool := decide (infinityBits < x.magnitudeBits)

/-- Positive or negative infinity. -/
def isInfinite (x : Binary64) : Bool := x.magnitudeBits == infinityBits

/-- Neither infinite nor not-a-number. -/
def isFinite (x : Binary64) : Bool := decide (x.magnitudeBits < infinityBits)

/-- One of the two zeros. -/
def isZero (x : Binary64) : Bool := x.magnitudeBits == 0

/-- The magnitude of a finite number in units of `2 ^ -1074`.  Below the first full exponent the
fraction counts units; above it there is a leading bit, and each exponent doubles the step. -/
def units (x : Binary64) : Nat :=
  if x.exponentBits = 0 then x.fractionBits
  else (twoPow 52 + x.fractionBits) * twoPow (x.exponentBits - 1)

/-- The number of units in `1`. -/
def unit : Nat := twoPow 1074

/-! ### Building -/

/-- The number with the given magnitude pattern and a clear sign bit. -/
def ofMagnitude (magnitude : Nat) : Binary64 := ⟨UInt64.ofNat magnitude⟩

def zero : Binary64 := ofMagnitude 0

def infinity : Binary64 := ofMagnitude infinityBits

/-- Flips the sign, of zero and of infinity too. -/
def neg (x : Binary64) : Binary64 := ⟨x.bits ^^^ 0x8000000000000000⟩

instance : Neg Binary64 := ⟨neg⟩

/-- The quotient rounded to the nearest whole number, a half to the even one. -/
def roundDiv (num den : Nat) : Nat :=
  let quotient := num / den
  let rest := 2 * (num % den)
  if rest < den then quotient
  else if den < rest then quotient + 1
  else quotient + quotient % 2

/-- How far the last place of a magnitude lies above one unit: numbers below `2 ^ 53` units are
exact, and every further binary digit costs one place. -/
def lastPlace (wholeUnits : Nat) : Nat := Nat.log2 wholeUnits - 52

/-- The number nearest to `num / den`, a half going to the even neighbour; infinity from half a
step beyond the largest number on.  A carry out of the fraction raises the exponent field, which
is exactly the next number. -/
def nearest (num den : Nat) : Binary64 :=
  let place := lastPlace (num * unit / den)
  ofMagnitude (min (place * twoPow 52 + roundDiv (num * unit) (den * twoPow place)) infinityBits)

/-- The number nearest to a natural number. -/
def ofNat (n : Nat) : Binary64 := nearest n 1

/-- The number nearest to an integer. -/
def ofInt (n : Int) : Binary64 := if n < 0 then -(ofNat n.natAbs) else ofNat n.natAbs

/-- The number nearest to `10 ^ n`. -/
def powerOfTen (n : Nat) : Binary64 := ofNat (tenPow n)

/-! ### Comparison -/

/-- The place of a number in the order of all numbers.  Magnitude patterns grow with the
magnitude, so the signed pattern is an order key in which both zeros agree. -/
def rank (x : Binary64) : Int := if x.isNegative then -(x.magnitudeBits : Int) else x.magnitudeBits

/-- Compares two numbers; nothing compares with a NaN. -/
def compare? (x y : Binary64) : Option Ordering :=
  if x.isNaN || y.isNaN then none else some (compare x.rank y.rank)

/-- Numerical equality: the two zeros are equal, a NaN equals nothing. -/
def eqv (x y : Binary64) : Bool := x.compare? y == some .eq

/-! ### Rounding to whole numbers -/

/-- The whole part of a finite number, towards zero. -/
def truncate (x : Binary64) : Int :=
  let whole : Nat := x.units / unit
  if x.isNegative then -(whole : Int) else whole

/-- The nearest whole number to the magnitude of a finite number, a half going up. -/
def roundedMagnitude (x : Binary64) : Nat := (2 * x.units + unit) / (2 * unit)

/-! ### Arithmetic -/

def toFloat (x : Binary64) : Float := Float.ofBits x.bits

def ofFloat (x : Float) : Binary64 := ⟨x.toBits⟩

instance : Add Binary64 := ⟨fun x y => ofFloat (x.toFloat + y.toFloat)⟩
instance : Sub Binary64 := ⟨fun x y => ofFloat (x.toFloat - y.toFloat)⟩
instance : Mul Binary64 := ⟨fun x y => ofFloat (x.toFloat * y.toFloat)⟩
instance : Div Binary64 := ⟨fun x y => ofFloat (x.toFloat / y.toFloat)⟩

end Binary64

end PathQuery
