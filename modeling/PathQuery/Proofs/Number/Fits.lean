/-
Integers that fit 64 bits.

* **`int64Of?_eq_some_iff`, `int64Of?_eq_none_iff`** — an integer that fits is given as it is, and one
  that does not is not given at all.
-/
import Mathlib.Algebra.Group.Int.Defs
import PathQuery.Number.Numeral

namespace PathQuery

/-- The integers that are one of 64 bits. -/
def FitsInt64 (n : Int) : Prop := -2 ^ 63 ≤ n ∧ n < 2 ^ 63

instance : DecidablePred FitsInt64 := fun _ => instDecidableAnd

theorem fitsInt64_toInt (k : Int64) : FitsInt64 k.toInt := ⟨k.le_toInt, k.toInt_lt⟩

variable {n : Int} {k : Int64}

theorem FitsInt64.toInt_ofInt (h : FitsInt64 n) : (Int64.ofInt n).toInt = n :=
  Int64.toInt_ofInt_of_le h.1 h.2

theorem int64Of?_eq_some_iff : int64Of? n = some k ↔ k.toInt = n := by
  constructor
  · intro h
    rw [int64Of?] at h
    split at h
    case isTrue hfits =>
      obtain rfl := Option.some.inj h
      exact FitsInt64.toInt_ofInt hfits
    case isFalse => exact nomatch h
  · rintro rfl
    have hfits : -(twoPow 63 : Int) ≤ k.toInt ∧ k.toInt < twoPow 63 := fitsInt64_toInt k
    rw [int64Of?, if_pos hfits, Int64.ofInt_toInt]

theorem int64Of?_eq_none_iff : int64Of? n = none ↔ ¬ FitsInt64 n := by
  rw [int64Of?, ite_eq_right_iff]
  exact ⟨fun h hfits => (nomatch h hfits), fun h hfits => absurd hfits h⟩

end PathQuery
