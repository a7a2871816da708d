/-
Decimals as arithmetic needs them.

* **`DecimalSystem`** — decimals with their conversions and operations;
* **`DecimalSystem.Lawful`** — taking a decimal from zero only changes its sign.

Design notes: arithmetic goes through a system and never looks at its decimals, so what is proved of
it holds of every lawful one.
-/
import PathQuery.Number.Binary64

namespace PathQuery

/-- Decimals, and what mixed arithmetic of integers and binary64 numbers does with them. -/
structure DecimalSystem where
  Carrier : Type
  ofInt : Int → Carrier
  /-- The decimal for a binary64 number; none if that is not finite or too large. -/
  ofBinary64 : Binary64 → Option Carrier
  /-- Each of the operations gives none if its result is too large. -/
  add : Carrier → Carrier → Option Carrier
  sub : Carrier → Carrier → Option Carrier
  mul : Carrier → Carrier → Option Carrier
  div : Carrier → Carrier → Option Carrier
  isWhole : Carrier → Bool
  /-- The whole part, towards zero. -/
  whole : Carrier → Int
  toBinary64 : Carrier → Binary64

/-- What is asked of decimals where binary64 numbers are taken from zero: `neg` changes the sign of a
decimal, and it is what conversions, whole parts and zero less a decimal agree upon. -/
structure DecimalSystem.Lawful (D : DecimalSystem) (neg : D.Carrier → D.Carrier) : Prop where
  neg_neg : ∀ d, neg (neg d) = d
  ofBinary64_neg : ∀ x, D.ofBinary64 (-x) = (D.ofBinary64 x).map neg
  zero_sub : ∀ {x d}, D.ofBinary64 x = some d → D.sub (D.ofInt 0) d = some (neg d)
  isWhole_neg : ∀ d, D.isWhole (neg d) = D.isWhole d
  whole_neg : ∀ d, D.whole (neg d) = -D.whole d
  toBinary64_neg : ∀ d, D.isWhole d = false → D.toBinary64 (neg d) = -D.toBinary64 d
  /-- A number without a sign has a decimal without one. -/
  whole_nonneg : ∀ {x d}, x.isNegative = false → D.ofBinary64 x = some d → 0 ≤ D.whole d
  /-- Zero has a decimal, which is zero. -/
  ofBinary64_of_isZero : ∀ {x}, x.isZero = true →
    ∃ d, D.ofBinary64 x = some d ∧ D.isWhole d = true ∧ D.whole d = 0

end PathQuery
