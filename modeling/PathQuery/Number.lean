/-
Numbers of the query language: 64-bit integers and binary64 numbers, kept apart.

* **`Number.toBinary64`** — the number as a binary64 number, an integer rounded to nearest;
* **`Number.compare?`** — integers exactly, all other pairs as binary64 numbers;
* **`Number.text`** — how a number is written as a value;
* **`readNumber?`** — a number from the text of a value.
-/
import PathQuery.Number.Shortest
import PathQuery.Text.CharClass

namespace PathQuery

/-- An integer or a binary64 number. -/
inductive Number where
  | integer (value : Int64)
  | float (value : Binary64)
deriving DecidableEq, Repr, Inhabited

namespace Number

def toBinary64 : Number → Binary64
  | .integer n => .ofInt n.toInt
  | .float x => x

/-- Compares two numbers; none if a NaN is involved. -/
def compare? : Number → Number → Option Ordering
  | .integer m, .integer n => some (compare m.toInt n.toInt)
  | a, b => a.toBinary64.compare? b.toBinary64

/-- Numerical equality. -/
def eqv (a b : Number) : Bool := a.compare? b == some .eq

/-- Whether a number is neither zero; a NaN is not zero. -/
def isNonzero : Number → Bool
  | .integer n => n != 0
  | .float x => !x.isZero

def text : Number → String
  | .integer n => toString n.toInt
  | .float x => x.text

end Number

/-- The characters of decimal numbers. -/
def isNumberPart (c : Char) : Bool :=
  c.isDigit || c == '+' || c == '-' || c == '.' || c == 'e' || c == 'E'

/-- The number in a text that holds nothing else but blanks around it: an integer if it reads as
one that fits 64 bits, otherwise a finite binary64 number. -/
def readNumber? (text : String) : Option Number :=
  let chars := Text.trim text.toList
  if !chars.all isNumberPart then none
  else
    match readInt64? chars with
    | some n => some (.integer n)
    | none => (readBinary64? chars).bind fun x => if x.isFinite then some (.float x) else none

end PathQuery
