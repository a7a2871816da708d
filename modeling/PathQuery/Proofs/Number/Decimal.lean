/-
The decimals of the language are lawful.

* **`Decimal.fits_of_ofBinary64`** — the decimal of a float is within the bounds of decimals;
* **`Decimal.zero_sub`** — so zero less a decimal is exact;
* **`Decimal.lawful_system`** — and all that arithmetic asks of it holds.
-/
import PathQuery.Number.Decimal
import PathQuery.Proofs.Number.FromZero
import PathQuery.Proofs.Number.Rounding

namespace PathQuery

namespace Decimal

/-! ### Bounds -/

/-- The coefficient and the scale are within their bounds. -/
structure Fits (d : Decimal) : Prop where
  coefficient_lt : d.coefficient.natAbs < bound
  scale_le : d.scale ≤ maxScale

theorem payHalves_lt {coefficient : Nat} (h : coefficient < bound) (halves places : Nat) :
    (payHalves halves coefficient places).1 < bound := by
  induction halves generalizing coefficient places with
  | zero => exact h
  | succ halves ih =>
    have hhalf : coefficient / 2 < bound := Nat.lt_of_le_of_lt (Nat.div_le_self _ _) h
    rw [payHalves]
    split
    · exact ih hhalf places
    · split
      case isTrue hfive => exact ih hfive (places + 1)
      case isFalse => exact ih hhalf places

theorem dropDigit_le {coefficient : Nat} (h : 10 ≤ coefficient) :
    dropDigit coefficient ≤ coefficient := by
  rw [dropDigit]
  split <;> omega

theorem dropPlaces_le (excess coefficient : Nat) : dropPlaces excess coefficient ≤ coefficient := by
  induction excess generalizing coefficient with
  | zero => exact Nat.le_refl _
  | succ excess ih =>
    rw [dropPlaces]
    split
    · exact Nat.zero_le _
    · exact Nat.le_trans (ih _) (dropDigit_le (by omega))

theorem dropPrecision_le (scale coefficient : Nat) :
    (dropPrecision scale coefficient).1 ≤ coefficient ∧
      (dropPrecision scale coefficient).2 ≤ scale := by
  induction scale generalizing coefficient with
  | zero => exact ⟨Nat.le_refl _, Nat.le_refl _⟩
  | succ scale ih =>
    rw [dropPrecision]
    split
    case isTrue hlarge =>
      have hten : 10 ≤ coefficient := Nat.le_trans (by decide) hlarge
      obtain ⟨hcoefficient, hscale⟩ := ih (dropDigit coefficient)
      exact ⟨Nat.le_trans hcoefficient (dropDigit_le hten), Nat.le_succ_of_le hscale⟩
    case isFalse => exact ⟨Nat.le_refl _, Nat.le_refl _⟩

theorem strip_le (coefficient scale : Nat) :
    (strip coefficient scale).1 ≤ coefficient ∧ (strip coefficient scale).2 ≤ scale := by
  induction scale generalizing coefficient with
  | zero => exact ⟨Nat.le_refl _, Nat.le_refl _⟩
  | succ scale ih =>
    rw [strip]
    split
    · obtain ⟨hcoefficient, hscale⟩ := ih (coefficient / 10)
      exact ⟨Nat.le_trans hcoefficient (Nat.div_le_self _ _), Nat.le_succ_of_le hscale⟩
    · exact ⟨Nat.le_refl _, Nat.le_refl _⟩

variable {d : Decimal}

theorem fits_of_ofBinary {significand : Nat} {exponent : Int} (hsignificand : significand < bound)
    (h : ofBinary significand exponent = some d) : d.Fits ∧ 0 ≤ d.coefficient := by
  rw [ofBinary] at h
  split at h
  · dsimp only at h
    split at h
    case isTrue hlt =>
      cases h
      exact ⟨⟨hlt, Nat.zero_le _⟩, Int.natCast_nonneg _⟩
    case isFalse => exact nomatch h
  · cases h
    have hpaid := payHalves_lt hsignificand (-exponent).toNat 0
    have hkept := dropPlaces_le ((payHalves (-exponent).toNat significand 0).2 - maxScale)
      (payHalves (-exponent).toNat significand 0).1
    obtain ⟨hdropped, hplaces⟩ := dropPrecision_le
      (min (payHalves (-exponent).toNat significand 0).2 maxScale)
      (dropPlaces ((payHalves (-exponent).toNat significand 0).2 - maxScale)
        (payHalves (-exponent).toNat significand 0).1)
    refine ⟨⟨?_, ?_⟩, Int.natCast_nonneg _⟩
    · exact Nat.lt_of_le_of_lt ((strip_le _ _).1.trans (hdropped.trans hkept)) hpaid
    · exact (strip_le _ _).2.trans (hplaces.trans (Nat.min_le_right _ _))

/-- The coefficient of a float that is not negative is none either. -/
theorem fits_of_ofBinary64 {x : Binary64} (hx : x.isNegative = false)
    (h : ofBinary64 x = some d) : d.Fits ∧ 0 ≤ d.coefficient := by
  have hfraction : x.fractionBits < 2 ^ 52 := Nat.mod_lt _ (by decide)
  have hbound : bound = 2 ^ 96 := rfl
  have hpow : twoPow 52 = 2 ^ 52 := rfl
  rw [ofBinary64] at h
  split at h
  case isTrue => exact nomatch h
  case isFalse =>
    rw [hx] at h
    refine fits_of_ofBinary ?_ h
    split <;> omega

/-! ### Zero less a decimal -/

theorem neg_neg (d : Decimal) : d.neg.neg = d := by rw [neg, neg, Int.neg_neg]

/-- A coefficient within the bound is kept at its scale. -/
theorem fitMagnitude_of_lt {coefficient : Nat} (h : coefficient < bound) (scale : Nat) :
    fitMagnitude coefficient (tenPow scale) scale = some (coefficient, scale) := by
  cases scale with
  | zero =>
    have hround : Binary64.roundDiv coefficient (tenPow 0) = coefficient := by
      have hmul : Binary64.roundDiv (coefficient * 1) 1 = coefficient :=
        Binary64.roundDiv_mul Nat.one_pos
      rwa [Nat.mul_one] at hmul
    rw [fitMagnitude, hround, if_pos h]
  | succ scale => rw [fitMagnitude, Binary64.roundDiv_mul (tenPow_pos _), if_pos h]

/-- A decimal within the bounds is one of the fractions that are kept as they are. -/
theorem Fits.fit_eq (h : d.Fits) : fit d.coefficient (tenPow d.scale) d.scale = some d := by
  have hsign : (if d.coefficient < 0 then -(d.coefficient.natAbs : Int)
      else d.coefficient.natAbs) = d.coefficient := by
    split <;> omega
  rw [fit, Nat.min_eq_left h.scale_le, fitMagnitude_of_lt h.coefficient_lt, Option.map_some]
  exact congrArg (fun coefficient => some (Decimal.mk coefficient d.scale)) hsign

theorem Fits.neg (h : d.Fits) : d.neg.Fits :=
  ⟨(Int.natAbs_neg d.coefficient).symm ▸ h.coefficient_lt, h.scale_le⟩

/-- Zero less a decimal is the decimal with its sign changed. -/
theorem zero_sub (h : d.Fits) : (ofInt 0).sub d = some d.neg := by
  have hnum : (ofInt 0).coefficient * tenPow d.neg.scale +
      d.neg.coefficient * tenPow (ofInt 0).scale = d.neg.coefficient := by
    rw [ofInt, tenPow_zero, Int.zero_mul, Int.zero_add, Int.natCast_one, Int.mul_one]
  rw [sub, add, hnum, show (ofInt 0).scale = 0 from rfl, Nat.zero_add, Nat.zero_max]
  exact h.neg.fit_eq

/-! ### Changes of sign -/

theorem ofBinary64_neg (x : Binary64) : ofBinary64 (-x) = (ofBinary64 x).map neg := by
  rw [ofBinary64, ofBinary64, Binary64.isFinite, Binary64.isFinite, Binary64.exponentBits,
    Binary64.fractionBits, Binary64.magnitudeBits_neg, Binary64.isNegative_neg,
    ← Binary64.isFinite, ← Binary64.exponentBits, ← Binary64.fractionBits]
  -- What is negative now was not before, and the other way round.
  have htwice (magnitude : Option Decimal) : magnitude = (magnitude.map neg).map neg := by
    rw [Option.map_map, show neg ∘ neg = id from funext neg_neg, Option.map_id]
    rfl
  cases x.isFinite with
  | false => rfl
  | true =>
    cases x.isNegative with
    | false => rfl
    | true => exact htwice _

theorem fits_of_eq_some {x : Binary64} (h : ofBinary64 x = some d) : d.Fits := by
  cases hx : x.isNegative with
  | false => exact (fits_of_ofBinary64 hx h).1
  | true =>
    have hneg : ofBinary64 (-x) = some d.neg := by rw [ofBinary64_neg, h, Option.map_some]
    have hpositive : (-x).isNegative = false := by rw [Binary64.isNegative_neg, hx, Bool.not_true]
    have hfits := (fits_of_ofBinary64 hpositive hneg).1.neg
    rwa [neg_neg] at hfits

theorem isWhole_neg (d : Decimal) : d.neg.isWhole = d.isWhole := by
  rw [isWhole, isWhole, Bool.eq_iff_iff, beq_iff_eq, beq_iff_eq, neg, ← Int.dvd_iff_emod_eq_zero,
    ← Int.dvd_iff_emod_eq_zero, Int.dvd_neg]

theorem toBinary64_neg (h : d.isWhole = false) : d.neg.toBinary64 = -d.toBinary64 := by
  have hmagnitude : d.neg.magnitudeToBinary64 = d.magnitudeToBinary64 := by
    rw [magnitudeToBinary64, magnitudeToBinary64, neg, Int.natAbs_neg]
  have hzero : d.coefficient ≠ 0 := by
    intro hzero
    rw [isWhole, hzero, Int.zero_emod] at h
    exact absurd h (by decide)
  have hcoefficient : d.neg.coefficient = -d.coefficient := rfl
  rw [toBinary64, toBinary64, hmagnitude, hcoefficient]
  rcases Int.lt_or_gt_of_ne hzero with hlt | hgt
  · rw [if_neg (by omega), if_pos hlt, Binary64.neg_neg]
  · rw [if_pos (by omega), if_neg (by omega)]

theorem ofBinary64_of_isZero {x : Binary64} (h : x.isZero = true) :
    ofBinary64 x = some (ofInt 0) := by
  have hmagnitude : x.magnitudeBits = 0 := beq_iff_eq.1 h
  have hpositive : ofBinary64 (.ofMagnitude 0) = some (ofInt 0) := by decide +kernel
  cases hx : x.isNegative with
  | false => rw [Binary64.eq_ofMagnitude hx, hmagnitude, hpositive]
  | true =>
    have hneg : (-x).isNegative = false := by rw [Binary64.isNegative_neg, hx, Bool.not_true]
    rw [← x.neg_neg, ofBinary64_neg, Binary64.eq_ofMagnitude hneg, Binary64.magnitudeBits_neg,
      hmagnitude, hpositive]
    rfl

/-- The decimals of the language are lawful. -/
theorem lawful_system : system.Lawful neg where
  neg_neg := neg_neg
  ofBinary64_neg := ofBinary64_neg
  zero_sub h := zero_sub (fits_of_eq_some h)
  isWhole_neg := isWhole_neg
  whole_neg _ := Int.neg_tdiv _ _
  toBinary64_neg _ := toBinary64_neg
  whole_nonneg hx h := Int.tdiv_nonneg (fits_of_ofBinary64 hx h).2 (Int.natCast_nonneg _)
  ofBinary64_of_isZero h := ⟨_, ofBinary64_of_isZero h, rfl, rfl⟩

end Decimal

end PathQuery
