/-
The shortest decimal text that reads back as the same number.

On the grid of multiples of `10 ^ e` a number has two neighbours.  The search goes from coarse
grids to fine ones and stops at the first grid on which a neighbour reads back, so no numeral with
fewer digits does; of two that read back the nearer one is taken.

* **`shortest`** — the chosen numeral;
* **`text`** — the number written out with it.

Design notes: a neighbour is accepted only after it has been read back, so that the text of a
number reads back by construction.  Seventeen digits always suffice; the exact expansion that ends
the search makes it total.
-/
import PathQuery.Number.Numeral

namespace PathQuery

namespace Binary64

/-- Which of two neighbours at the same distance is taken. -/
inductive Tie where
  | upper
  | even
deriving DecidableEq, Repr

/-- Whether a numeral reads back as the magnitude of `x`. -/
def readsBack (x : Binary64) (n : Numeral) : Bool :=
  n.toBinary64.magnitudeBits == x.magnitudeBits

/-- The neighbour of `x` on the grid of multiples of `10 ^ exponent` that reads back, the nearer
of the two if both do. -/
def onGrid (tie : Tie) (x : Binary64) (exponent : Int) : Option Numeral :=
  let num := x.units * tenPow (-exponent).toNat
  let den := unit * tenPow exponent.toNat
  let lower : Numeral := ⟨num / den, exponent⟩
  let upper : Numeral := ⟨num / den + 1, exponent⟩
  let rest := 2 * (num % den)
  let lowerFirst :=
    decide (rest < den) || (rest == den && tie == .even && lower.coefficient % 2 == 0)
  match x.readsBack lower, x.readsBack upper with
  | true, true => some (if lowerFirst then lower else upper)
  | true, false => some lower
  | false, true => some upper
  | false, false => none

/-- Searches the grids from `10 ^ exponent` on towards finer ones. -/
def searchGrids (tie : Tie) (x : Binary64) : Nat → Int → Option Numeral
  | 0, _ => none
  | steps + 1, exponent =>
    match x.onGrid tie exponent with
    | some n => some n
    | none => searchGrids tie x steps (exponent - 1)

/-- An exponent at or above that of the leading decimal digit. -/
def coarsestExponent (x : Binary64) : Int := ((Nat.log2 x.units : Int) - 1074) * 30103 / 100000 + 1

/-- Every digit: a number of units is a whole multiple of `10 ^ -1074`. -/
def exactNumeral (x : Binary64) : Numeral := ⟨x.units * Nat.pow 5 1074, -1074⟩

/-- The numeral with the fewest digits that reads back as the magnitude of a finite number. -/
def shortest (tie : Tie) (x : Binary64) : Numeral :=
  if x.isZero then ⟨0, 0⟩
  else (x.searchGrids tie 20 x.coarsestExponent).getD x.exactNumeral

/-- The text of a number: the shortest numeral written out in full, never with an exponent, and
without a point if the number is whole. -/
def text (x : Binary64) : String :=
  if x.isNaN then "NaN"
  else
    let magnitude := if x.isInfinite then "inf" else String.ofList (x.shortest .upper).positional
    if x.isNegative then "-" ++ magnitude else magnitude

end Binary64

end PathQuery
