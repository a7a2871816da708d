/-
The remainder of any two finite operands.

An operand is cut down to its whole part, and that to 64 bits, before the remainder is taken:

* **`Number.truncate_eq_clamp`** — what is left of an operand;
* **`arithmetic_modulo_of_finite`** — the remainder is one of the whole parts where they fit 64
  bits, and beyond only if what was cut off is a multiple of the divisor;
* **`exists_wrong_remainder`** — an operand of which too much is cut off.
-/
import Mathlib.Data.Rat.Floor
import PathQuery.Proofs.Arithmetic.Integers
import PathQuery.Proofs.Number.Comparison

namespace PathQuery

/-! ### Values of numbers -/

/-- The number that a finite one stands for. -/
def Binary64.toRat (x : Binary64) : ℚ :=
  if x.isNegative then -(x.units / Binary64.unit) else x.units / Binary64.unit

namespace Number

/-- The number that a finite one stands for. -/
def toRat : Number → ℚ
  | .integer n => n.toInt
  | .float x => x.toRat

end Number

/-- The whole part of a number: the next integer towards zero. -/
def wholePart (q : ℚ) : ℤ := if q < 0 then ⌈q⌉ else ⌊q⌋

theorem wholePart_of_nonneg {q : ℚ} (h : 0 ≤ q) : wholePart q = ⌊q⌋ := if_neg (not_lt.2 h)

theorem wholePart_neg_of_nonneg {q : ℚ} (h : 0 ≤ q) : wholePart (-q) = -⌊q⌋ := by
  rw [wholePart]
  split
  case isTrue => exact Int.ceil_neg
  case isFalse hnonneg =>
    obtain rfl : q = 0 := le_antisymm (neg_nonneg.1 (not_lt.1 hnonneg)) h
    rw [neg_zero, Int.floor_zero, Int.neg_zero]

theorem wholePart_intCast (n : ℤ) : wholePart n = n := by
  rw [wholePart, Int.ceil_intCast, Int.floor_intCast, ite_self]

theorem Binary64.truncate_eq_wholePart (x : Binary64) : x.truncate = wholePart x.toRat := by
  have hnonneg : (0 : ℚ) ≤ x.units / unit := by positivity
  have hfloor : ⌊(x.units / unit : ℚ)⌋ = ((x.units / unit : ℕ) : ℤ) := by
    rw [Rat.floor_natCast_div_natCast, Int.natCast_ediv]
  rw [truncate, toRat]
  cases x.isNegative with
  | true => exact ((wholePart_neg_of_nonneg hnonneg).trans (congrArg Neg.neg hfloor)).symm
  | false => exact ((wholePart_of_nonneg hnonneg).trans hfloor).symm

/-! ### Integers held within 64 bits -/

section Clamp

variable {m n r : ℤ}

theorem clamp_eq (n : ℤ) : clamp n = max (-2 ^ 63) (min n (2 ^ 63 - 1)) := rfl

theorem clamp_of_fits (h : FitsInt64 n) : clamp n = n := by
  obtain ⟨hlow, hhigh⟩ := h
  rw [clamp_eq]
  omega

theorem clamp_eq_zero_iff : clamp n = 0 ↔ n = 0 := by
  rw [clamp_eq]
  omega

theorem natAbs_clamp_le (n : ℤ) : (clamp n).natAbs ≤ n.natAbs := by
  rw [clamp_eq]
  omega

theorem sign_clamp (n : ℤ) : (clamp n).sign = n.sign := by
  obtain hneg | rfl | hpos := Int.lt_trichotomy n 0
  · have hclamp : clamp n < 0 := by
      rw [clamp_eq]
      omega
    rw [Int.sign_eq_neg_one_of_neg hneg, Int.sign_eq_neg_one_of_neg hclamp]
  · rfl
  · have hclamp : 0 < clamp n := by
      rw [clamp_eq]
      omega
    rw [Int.sign_eq_one_of_pos hpos, Int.sign_eq_one_of_pos hclamp]

/-- A remainder of what is held within 64 bits is on the right side of zero and less than the
divisor, so only the quotient may be missing. -/
theorem IsRemainder.iff_dvd_of_clamp (h : IsRemainder (clamp m) (clamp n) r) :
    IsRemainder m n r ↔ n ∣ m - r := by
  constructor
  · rintro ⟨⟨q, hq⟩, -, -⟩
    exact ⟨q, by rw [hq, Int.add_sub_cancel, Int.mul_comm]⟩
  · rintro ⟨q, hq⟩
    refine ⟨⟨q, ?_⟩, Nat.lt_of_lt_of_le h.natAbs_lt (natAbs_clamp_le n), ?_⟩
    · rw [Int.mul_comm, ← hq, Int.sub_add_cancel]
    · rw [← sign_clamp m]
      exact h.sign

end Clamp

/-! ### The operator -/

namespace Number

theorem truncate_eq_clamp {a : Number} (h : a.isFinite = true) :
    a.truncate = clamp (wholePart a.toRat) := by
  cases a with
  | integer n => rw [truncate, toRat, wholePart_intCast, clamp_of_fits (fitsInt64_toInt n)]
  | float x =>
    rw [truncate, Binary64.isNaN_eq_false (show x.isFinite = true from h), if_neg Bool.false_ne_true,
      Binary64.truncate_eq_wholePart]
    rfl

end Number

variable {left right : Value} {a b : Number}

/-- The remainder of two operands that stand for finite numbers, with whole parts `A` and `B`, is an
error exactly if `B` is zero.  Otherwise it is an integer, the remainder of `A` and `B` held within 64
bits; it is that of `A` and `B` themselves if these fit, and in general exactly if it differs from
`A` by a multiple of `B`. -/
theorem arithmetic_modulo_of_finite (hleft : left.toNumber? = some a)
    (hright : right.toNumber? = some b) (ha : a.isFinite = true) (hb : b.isFinite = true) :
    let A := wholePart a.toRat
    let B := wholePart b.toRat
    (arithmetic .modulo left right = .error .divisionByZero ↔ B = 0) ∧
      (B ≠ 0 → ∃ r, IsInteger r (arithmetic .modulo left right) ∧
        IsRemainder (clamp A) (clamp B) r ∧
        (FitsInt64 A → FitsInt64 B → IsRemainder A B r) ∧
        (IsRemainder A B r ↔ B ∣ A - r)) := by
  intro A B
  have hA : a.truncate = clamp A := Number.truncate_eq_clamp ha
  have hB : b.truncate = clamp B := Number.truncate_eq_clamp hb
  rw [arithmetic_eq_of_toNumber? hleft hright, arithmetic_modulo_eq]
  by_cases hzero : B = 0
  · have hnone : remainder a b = none := if_pos (hB.trans (clamp_eq_zero_iff.2 hzero))
    rw [hnone]
    exact ⟨iff_of_true rfl hzero, fun hne => absurd hzero hne⟩
  · have hdivisor : clamp B ≠ 0 := fun h => hzero (clamp_eq_zero_iff.1 h)
    obtain ⟨r, hr, htmod⟩ := exists_remainder (a := a) (hB.symm ▸ hdivisor)
    have hremainder : IsRemainder (clamp A) (clamp B) r.toInt := by
      rw [htmod, hA, hB]
      exact isRemainder_tmod hdivisor
    rw [hr]
    refine ⟨iff_of_false nofun hzero, fun _ => ⟨r.toInt, ⟨r, rfl, rfl⟩, hremainder, ?_,
      hremainder.iff_dvd_of_clamp⟩⟩
    intro hfitsA hfitsB
    rwa [clamp_of_fits hfitsA, clamp_of_fits hfitsB] at hremainder

/-- The text of `-7.9` and the float `3.5`, cut down to `-7` and `3`. -/
theorem arithmetic_modulo_of_finite_of_fractions :
    let half : Value := .number (.float ⟨0x400C000000000000⟩)
    arithmetic .modulo (.string "-7.9") half ≠ .error .divisionByZero ∧
      ∃ r, IsInteger r (arithmetic .modulo (.string "-7.9") half) ∧ IsRemainder (-7) 3 r := by
  intro half
  have hleft : (Value.string "-7.9").toNumber? = some (.float ⟨0xC01F99999999999A⟩) := by
    decide +kernel
  have hA : wholePart (Number.float ⟨0xC01F99999999999A⟩).toRat = -7 :=
    (Binary64.truncate_eq_wholePart _).symm.trans (by decide +kernel)
  have hB : wholePart (Number.float ⟨0x400C000000000000⟩).toRat = 3 :=
    (Binary64.truncate_eq_wholePart _).symm.trans (by decide +kernel)
  have hright : half.toNumber? = some (.float ⟨0x400C000000000000⟩) := rfl
  obtain ⟨herror, hresult⟩ := arithmetic_modulo_of_finite hleft hright (by decide +kernel)
    (by decide +kernel)
  rw [hA, hB] at hresult
  rw [hB] at herror
  obtain ⟨r, hr, -, hfits, -⟩ := hresult (by decide)
  exact ⟨fun h => absurd (herror.1 h) (by decide), r, hr, hfits (by decide) (by decide)⟩

/-- `2 ^ 63` as a float is held within 64 bits by taking one off, and so is its remainder by ten. -/
theorem exists_wrong_remainder :
    let large : Number := .float ⟨0x43E0000000000000⟩
    large.isFinite = true ∧ wholePart large.toRat = 2 ^ 63 ∧
      arithmetic .modulo (.number large) (.number (.integer 10)) = .ok (.number (.integer 7)) ∧
      IsRemainder (2 ^ 63) 10 8 ∧ ¬ IsRemainder (2 ^ 63) 10 7 := by
  intro large
  have hremainder : remainder large (.integer 10) = some (.integer 7) := by decide +kernel
  refine ⟨by decide +kernel, ?_, ?_, ⟨⟨922337203685477580, by decide⟩, by decide, by decide⟩, ?_⟩
  · exact (Binary64.truncate_eq_wholePart _).symm.trans (by decide +kernel)
  · rw [arithmetic_modulo_eq, hremainder]
  · rintro ⟨⟨q, hq⟩, -, -⟩
    omega

end PathQuery
