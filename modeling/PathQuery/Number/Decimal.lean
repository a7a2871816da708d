/-
Decimal fractions with a 96-bit coefficient.

A decimal is `coefficient / 10 ^ scale` with `|coefficient| < 2 ^ 96` and `scale ≤ 28`.  Mixed
arithmetic of integers and binary64 numbers goes through these, so that a hundred times `1.1` is
`110`:

* **`fit`** — a fraction rounded to the largest scale at which its coefficient fits;
* **`add`, `sub`, `mul`** — the exact result, rounded by `fit`;
* **`div`** — the quotient by long division, as many places at a time as fit;
* **`ofBinary64`** — a binary64 number as a decimal, with no digits of a fraction beyond the
  sixteenth digit or so;
* **`toBinary64`** — back again, the whole part and the fraction apart;
* **`system`** — all of these together, for arithmetic.

Design notes: the conversions are stepwise on purpose, since each step may drop a digit and the
dropped digits decide the last place of the answer.
-/
import PathQuery.Number.DecimalSystem

namespace PathQuery

/-- The number `coefficient / 10 ^ scale`. -/
structure Decimal where
  coefficient : Int
  scale : Nat
deriving DecidableEq, Repr, Inhabited

namespace Decimal

/-- Coefficients stay below this bound. -/
def bound : Nat := twoPow 96

/-- The finest scale. -/
def maxScale : Nat := 28

/-! ### Arithmetic -/

/-- The coefficient and scale of `num / den` at the largest scale, `scale` at most, at which the
coefficient rounded to nearest (a half to even) is within the bound. -/
def fitMagnitude (num den : Nat) : Nat → Option (Nat × Nat)
  | 0 =>
    let coefficient := Binary64.roundDiv num den
    if coefficient < bound then some (coefficient, 0) else none
  | scale + 1 =>
    let coefficient := Binary64.roundDiv (num * tenPow (scale + 1)) den
    if coefficient < bound then some (coefficient, scale + 1) else fitMagnitude num den scale

/-- The fraction `num / den` as a decimal of at most the given scale; none if even its whole part
is out of bounds. -/
def fit (num : Int) (den scale : Nat) : Option Decimal :=
  (fitMagnitude num.natAbs den (min scale maxScale)).map fun (coefficient, scale) =>
    ⟨if num < 0 then -(coefficient : Int) else coefficient, scale⟩

/-- Drops zeros at the end of the fraction. -/
def strip : Nat → Nat → Nat × Nat
  | coefficient, 0 => (coefficient, 0)
  | coefficient, scale + 1 =>
    if coefficient % 10 = 0 then strip (coefficient / 10) scale else (coefficient, scale + 1)

def neg (d : Decimal) : Decimal := ⟨-d.coefficient, d.scale⟩

def add (x y : Decimal) : Option Decimal :=
  fit (x.coefficient * tenPow y.scale + y.coefficient * tenPow x.scale)
    (tenPow (x.scale + y.scale)) (max x.scale y.scale)

def sub (x y : Decimal) : Option Decimal := x.add y.neg

def mul (x y : Decimal) : Option Decimal :=
  fit (x.coefficient * y.coefficient) (tenPow (x.scale + y.scale)) (x.scale + y.scale)

/-! ### Division -/

/-- The number of places, `places` at most, by which a coefficient can be extended within the
bound. -/
def room (coefficient : Nat) : (places : Nat) → Nat
  | 0 => 0
  | places + 1 =>
    if coefficient * tenPow (places + 1) < bound then places + 1 else room coefficient places

/-- The fraction `num / den` rounded to a coefficient at a scale, or with one place less if it does
not fit. -/
def settle (num den : Nat) (scale : Int) : Option (Nat × Nat) :=
  let coefficient := Binary64.roundDiv num den
  if scale < 0 then none
  else if coefficient < bound then some (coefficient, scale.toNat)
  else if scale = 0 then none
  else some (Binary64.roundDiv num (10 * den), (scale - 1).toNat)

/-- Long division: `quotient` and `rest` are what division by `den` has given at a scale.  Up to
nine places at a time are added while they fit and something is left to divide; what is left when
no more places fit is rounded away. -/
def longDivision (den : Nat) : (rounds quotient rest : Nat) → (scale : Int) → Option (Nat × Nat)
  | 0, _, _, _ => none
  | rounds + 1, quotient, rest, scale =>
    if rest = 0 ∧ 0 ≤ scale then some (quotient, scale.toNat)
    else
      let places :=
        if rest = 0 then min 9 (-scale).toNat else room quotient (min 9 (maxScale - scale).toNat)
      let num := rest * tenPow places
      let extended := quotient * tenPow places + num / den
      if places = 0 then settle (quotient * den + rest) den scale
      else if extended < bound then longDivision den rounds extended (num % den) (scale + places)
      else if rest = 0 then none
      else settle (extended * den + num % den) den (scale + places)

/-- Drops a group of zeros at the end of the fraction, all of them or none. -/
def dropZeros (count : Nat) : Nat × Nat → Nat × Nat
  | (coefficient, scale) =>
    if count ≤ scale ∧ coefficient % tenPow count = 0 then
      (coefficient / tenPow count, scale - count)
    else (coefficient, scale)

/-- Drops zeros at the end of a quotient, in groups of four, two and one.  Groups of eight come
first, but only from a coefficient that is a multiple of `2 ^ 32`. -/
def tidy : (rounds : Nat) → Nat × Nat → Nat × Nat
  | 0, d => dropZeros 1 (dropZeros 2 (dropZeros 4 d))
  | rounds + 1, (coefficient, scale) =>
    if 8 ≤ scale ∧ coefficient % twoPow 32 = 0 ∧ coefficient % tenPow 8 = 0 then
      tidy rounds (coefficient / tenPow 8, scale - 8)
    else dropZeros 1 (dropZeros 2 (dropZeros 4 (coefficient, scale)))

/-- The quotient to as many places as fit; none for a zero divisor and if even the whole part is
out of bounds.  A scale runs from `-28` to `28`, so sixty rounds are never used up. -/
def div (x y : Decimal) : Option Decimal :=
  let num := x.coefficient.natAbs
  let den := y.coefficient.natAbs
  if den = 0 then none
  else
    (longDivision den 60 (num / den) (num % den) (x.scale - y.scale)).map fun d =>
      let (coefficient, scale) := tidy 3 d
      ⟨coefficient * (x.coefficient.sign * y.coefficient.sign), scale⟩

/-! ### Whole decimals -/

/-- Whether the fraction is zero. -/
def isWhole (d : Decimal) : Bool := d.coefficient % tenPow d.scale == 0

/-- The whole part, towards zero. -/
def whole (d : Decimal) : Int := d.coefficient.tdiv (tenPow d.scale)

def ofInt (n : Int) : Decimal := ⟨n, 0⟩

/-! ### From binary64 -/

/-- Replaces factors of one half, of which `halves` are owed, by `5 / 10`: an even coefficient is
halved, an odd one is multiplied by five at the cost of a decimal place, and one that would leave
the bound is halved with loss.  Gives the coefficient and the places used. -/
def payHalves : (halves : Nat) → (coefficient places : Nat) → Nat × Nat
  | 0, coefficient, places => (coefficient, places)
  | halves + 1, coefficient, places =>
    if coefficient % 2 = 0 then payHalves halves (coefficient / 2) places
    else if coefficient * 5 < bound then payHalves halves (coefficient * 5) (places + 1)
    else payHalves halves (coefficient / 2) places

/-- Drops the last digit, five or more rounding up. -/
def dropDigit (coefficient : Nat) : Nat :=
  coefficient / 10 + if 5 ≤ coefficient % 10 then 1 else 0

/-- Drops digits until the scale is within bounds; a coefficient of one digit vanishes. -/
def dropPlaces : (excess : Nat) → (coefficient : Nat) → Nat
  | 0, coefficient => coefficient
  | excess + 1, coefficient =>
    if coefficient / 10 = 0 then 0 else dropPlaces excess (dropDigit coefficient)

/-- Drops digits of the fraction while the coefficient has more than 52 bits. -/
def dropPrecision : (scale coefficient : Nat) → Nat × Nat
  | 0, coefficient => (coefficient, 0)
  | scale + 1, coefficient =>
    if twoPow 52 ≤ coefficient then dropPrecision scale (dropDigit coefficient)
    else (coefficient, scale + 1)

/-- The magnitude of `significand * 2 ^ exponent` as a decimal; none if it is whole and out of
bounds. -/
def ofBinary (significand : Nat) (exponent : Int) : Option Decimal :=
  if 0 ≤ exponent then
    let coefficient := significand * twoPow exponent.toNat
    if coefficient < bound then some ⟨coefficient, 0⟩ else none
  else
    let (coefficient, places) := payHalves (-exponent).toNat significand 0
    let kept := dropPlaces (places - maxScale) coefficient
    let (coefficient, scale) := dropPrecision (min places maxScale) kept
    let (coefficient, scale) := strip coefficient scale
    some ⟨coefficient, scale⟩

/-- A finite number as a decimal; digits of its fraction beyond the sixteenth digit or so are
dropped. -/
def ofBinary64 (x : Binary64) : Option Decimal :=
  if !x.isFinite then none
  else
    let significand := if x.exponentBits = 0 then x.fractionBits else twoPow 52 + x.fractionBits
    let magnitude := ofBinary significand ((max x.exponentBits 1 : Nat) - 1075)
    if x.isNegative then magnitude.map neg else magnitude

/-! ### To binary64 -/

/-- The binary64 number for the magnitude of a decimal: whole part and fraction are converted
apart and added, and the sum is rounded to the decimal's places again. -/
def magnitudeToBinary64 (d : Decimal) : Binary64 :=
  let precision := tenPow d.scale
  let whole := Binary64.ofNat (d.coefficient.natAbs / precision)
  let fraction := Binary64.ofNat (d.coefficient.natAbs % precision) / Binary64.ofNat precision
  if fraction.isZero then whole
  else
    let scaled := (whole + fraction) * Binary64.powerOfTen d.scale
    Binary64.ofNat scaled.roundedMagnitude / Binary64.powerOfTen d.scale

/-- The binary64 number for a decimal. -/
def toBinary64 (d : Decimal) : Binary64 :=
  if d.coefficient < 0 then -d.magnitudeToBinary64 else d.magnitudeToBinary64

/-- The decimals of the language. -/
def system : DecimalSystem where
  Carrier := Decimal
  ofInt := ofInt
  ofBinary64 := ofBinary64
  add := add
  sub := sub
  mul := mul
  div := div
  isWhole := isWhole
  whole := whole
  toBinary64 := toBinary64

end Decimal

end PathQuery
