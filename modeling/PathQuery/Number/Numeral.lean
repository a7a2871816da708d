/-
Decimal numerals: a whole coefficient times a power of ten.

* **`Numeral.toBinary64`** — the number nearest to a numeral;
* **`Numeral.positional`** — the numeral written out without an exponent;
* **`Numeral.read?`** — a numeral read from text, with optional sign, point and exponent;
* **`readInt64?`** — an integer read from text, if it fits 64 bits.

Design notes: digits are ASCII digits only, on reading and on writing.
-/
import PathQuery.Number.Binary64

namespace PathQuery

/-- The non-negative number `coefficient * 10 ^ exponent`. -/
structure Numeral where
  coefficient : Nat
  exponent : Int
deriving DecidableEq, Repr, Inhabited

namespace Numeral

/-- The digits of the coefficient. -/
def digits (n : Numeral) : List Char := Nat.toDigits 10 n.coefficient

/-- The number of digits in front of the point; negative if the fraction starts with zeros. -/
def wholeDigits (n : Numeral) : Int := n.digits.length + n.exponent

/-- The binary64 number nearest to a numeral.  From `10 ^ 310` on that is infinity and below
`10 ^ -330` zero, which spares the powers of absurd exponents. -/
def toBinary64 (n : Numeral) : Binary64 :=
  if n.coefficient = 0 then .zero
  else if 310 < n.wholeDigits then .infinity
  else if n.wholeDigits < -330 then .zero
  else .nearest (n.coefficient * tenPow n.exponent.toNat) (tenPow (-n.exponent).toNat)

/-- The numeral written out in full: zeros fill the places between the digits and the point. -/
def positional (n : Numeral) : List Char :=
  let digits := n.digits
  let places := (-n.exponent).toNat
  if 0 ≤ n.exponent then digits ++ List.replicate n.exponent.toNat '0'
  else if places < digits.length then
    digits.take (digits.length - places) ++ '.' :: digits.drop (digits.length - places)
  else '0' :: '.' :: (List.replicate (places - digits.length) '0' ++ digits)

end Numeral

/-! ### Reading -/

/-- A number with its sign. -/
structure Signed (α : Type) where
  negative : Bool
  magnitude : α
deriving DecidableEq, Repr

/-- Takes an optional sign from the front. -/
def Signed.split : List Char → Signed (List Char)
  | '-' :: rest => ⟨true, rest⟩
  | '+' :: rest => ⟨false, rest⟩
  | rest => ⟨false, rest⟩

/-- The number written by digits alone. -/
def readNat? (text : List Char) : Option Nat :=
  if text ≠ [] ∧ text.all Char.isDigit then some (Nat.ofDigitChars 10 text 0) else none

/-- The integer written by digits after an optional sign. -/
def readInt? (text : List Char) : Option Int :=
  let signed := Signed.split text
  (readNat? signed.magnitude).map fun n => if signed.negative then -(n : Int) else n

/-- The 64-bit integer equal to `n`, if there is one. -/
def int64Of? (n : Int) : Option Int64 :=
  if -(twoPow 63 : Int) ≤ n ∧ n < twoPow 63 then some (Int64.ofInt n) else none

/-- The integer written by digits after an optional sign, if it fits 64 bits. -/
def readInt64? (text : List Char) : Option Int64 := (readInt? text).bind int64Of?

namespace Numeral

/-- Takes a fraction from the front: a point and the digits after it. -/
def splitFraction : List Char → List Char × List Char
  | '.' :: rest => (rest.takeWhile Char.isDigit, rest.dropWhile Char.isDigit)
  | rest => ([], rest)

/-- Reads what follows the digits: nothing, or `e` and an integer. -/
def readExponent? : List Char → Option Int
  | [] => some 0
  | c :: rest => if c = 'e' ∨ c = 'E' then readInt? rest else none

/-- Reads an unsigned numeral: digits with at most one point, at least one digit in all, then an
optional exponent. -/
def readUnsigned? (text : List Char) : Option Numeral :=
  let whole := text.takeWhile Char.isDigit
  let (fraction, rest) := splitFraction (text.dropWhile Char.isDigit)
  if whole ++ fraction = [] then none
  else (readExponent? rest).map fun exponent =>
    ⟨Nat.ofDigitChars 10 (whole ++ fraction) 0, exponent - fraction.length⟩

/-- Reads a numeral with an optional sign. -/
def read? (text : List Char) : Option (Signed Numeral) :=
  let signed := Signed.split text
  (readUnsigned? signed.magnitude).map (⟨signed.negative, ·⟩)

end Numeral

/-- The binary64 number nearest to a signed numeral; zero keeps its sign. -/
def Signed.toBinary64 (n : Signed Numeral) : Binary64 :=
  if n.negative then -n.magnitude.toBinary64 else n.magnitude.toBinary64

/-- The binary64 number nearest to the numeral in a text. -/
def readBinary64? (text : List Char) : Option Binary64 := (Numeral.read? text).map Signed.toBinary64

end PathQuery
