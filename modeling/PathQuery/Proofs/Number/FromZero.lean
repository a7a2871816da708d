/-
Zero less a binary64 number.

The operations of `Float` work on unpacked numbers, with sign, mantissa and exponent apart:

* **`Binary64.pack_unpack_vector`** — what is unpacked is packed as it was, unless it is a NaN;
* **`Binary64.unpack_neg`** — flipping the sign bit is what `neg` does to the unpacked number;
* **`Binary64.zero_sub`** — zero less a number is the number with its sign bit flipped, unless that
  is a zero.
-/
import Mathlib
import PathQuery.Proofs.Number.Magnitude

namespace PathQuery.Binary64

open Float.Model (Format UnpackedFloat)
open Float.Model.UnpackedFloat

/-! ### Fields -/

/-- The pattern of a number as the bits of a float. -/
def vector (x : Binary64) : BitVec Format.binary64.numBits := x.bits.toBitVec

variable {x : Binary64}

theorem toNat_unpackMantissa (x : Binary64) :
    (unpackMantissa x.vector).toNat = x.fractionBits := by
  rw [unpackMantissa_def, BitVec.extractLsb'_toNat]
  show x.bits.toNat % 2 ^ 52 = x.bits.toNat % 2 ^ 63 % 2 ^ 52
  omega

theorem toNat_unpackExponent (x : Binary64) :
    (unpackExponent x.vector).toNat = x.exponentBits := by
  rw [unpackExponent_def, BitVec.extractLsb'_toNat, Nat.shiftRight_eq_div_pow]
  show x.bits.toNat / 2 ^ 52 % 2 ^ 11 = x.bits.toNat % 2 ^ 63 / 2 ^ 52
  omega

theorem unpackMantissa_eq_zero_iff : unpackMantissa x.vector = 0#_ ↔ x.fractionBits = 0 := by
  rw [← BitVec.toNat_inj, toNat_unpackMantissa]
  rfl

theorem unpackExponent_eq_zero_iff : unpackExponent x.vector = 0#_ ↔ x.exponentBits = 0 := by
  rw [← BitVec.toNat_inj, toNat_unpackExponent]
  rfl

theorem unpackExponent_eq_full_iff : unpackExponent x.vector = -1#_ ↔ x.exponentBits = 2047 := by
  rw [← BitVec.toNat_inj, toNat_unpackExponent]
  rfl

theorem fields_eq (x : Binary64) :
    2 ^ 52 * x.exponentBits + x.fractionBits = x.magnitudeBits ∧ x.fractionBits < 2 ^ 52 :=
  ⟨Nat.div_add_mod _ _, Nat.mod_lt _ (by decide)⟩

theorem isNaNBits_vector (x : Binary64) : isNaNBits x.vector = x.isNaN := by
  obtain ⟨hsplit, hfraction⟩ := x.fields_eq
  have hlt : x.magnitudeBits < 2 ^ 63 := x.magnitudeBits_lt
  have hinfinity : infinityBits = 2047 * 2 ^ 52 := rfl
  rw [isNaNBits, isNaN, decide_eq_decide, unpackExponent_eq_full_iff, Ne,
    unpackMantissa_eq_zero_iff]
  omega

/-! ### Unpacked numbers -/

/-- A number is packed as it was. -/
theorem pack_unpack_vector (h : x.isNaN = false) :
    (unpack Format.binary64 x.vector).pack Format.binary64 = x.vector := by
  rw [pack_unpack, isNaNBits_vector, h, if_neg Bool.false_ne_true]

/-- The sign bit of the negative number is the other one. -/
theorem sign_unpackSign_neg (x : Binary64) :
    Sign.ofBitVec (unpackSign (-x).vector) = -Sign.ofBitVec (unpackSign x.vector) := by
  have hxor : (-x).vector = x.vector ^^^ BitVec.twoPow 64 63 := rfl
  have hflip (b : BitVec 1) : Sign.ofBitVec (b ^^^ 1#1) = -Sign.ofBitVec b := by
    obtain rfl | rfl := BitVec.eq_zero_or_eq_one b <;> rfl
  rw [unpackSign_def, unpackSign_def, hxor, BitVec.extractLsb'_xor]
  exact hflip _

theorem unpack_neg (x : Binary64) :
    unpack Format.binary64 (-x).vector = (unpack Format.binary64 x.vector).neg := by
  have hmantissa : unpackMantissa (-x).vector = unpackMantissa x.vector := by
    rw [← BitVec.toNat_inj, toNat_unpackMantissa, toNat_unpackMantissa, fractionBits,
      magnitudeBits_neg, fractionBits]
  have hexponent : unpackExponent (-x).vector = unpackExponent x.vector := by
    rw [← BitVec.toNat_inj, toNat_unpackExponent, toNat_unpackExponent, exponentBits,
      magnitudeBits_neg, exponentBits]
  simp only [unpack, hmantissa, hexponent, sign_unpackSign_neg]
  split
  · split <;> rfl
  · split
    · split <;> rfl
    · rfl

theorem unpack_ne_zero (h : x.isZero = false) (s : Sign) :
    unpack Format.binary64 x.vector ≠ .zero s := by
  obtain ⟨hsplit, -⟩ := x.fields_eq
  have hne : x.magnitudeBits ≠ 0 := beq_eq_false_iff_ne.1 h
  rw [unpack]
  split
  case isTrue => split <;> simp
  case isFalse =>
    split
    case isTrue hexponent =>
      have hmantissa : unpackMantissa x.vector ≠ 0#_ := by
        rw [unpackExponent_eq_zero_iff] at hexponent
        rw [Ne, unpackMantissa_eq_zero_iff]
        omega
      rw [dif_neg hmantissa]
      simp
    case isFalse => simp

/-! ### The difference -/

theorem ofInt_zero : ofInt 0 = zero := by decide +kernel

theorem zero_sub_unpacked {u : UnpackedFloat} (h : ∀ s, u ≠ .zero s) :
    UnpackedFloat.sub Format.binary64 (.zero .positive) u = u.neg := by
  cases u with
  | zero s => exact absurd rfl (h s)
  | infinity s => rfl
  | notANumber => rfl
  | finite s m e hm => rfl

/-- Zero less a number is the number with its sign changed, unless that is a zero. -/
theorem zero_sub (hnan : x.isNaN = false) (hzero : x.isZero = false) : zero - x = -x := by
  have hminus : (-x).isNaN = false := (isNaN_neg x).trans hnan
  have hstart : unpack Format.binary64 zero.vector = .zero .positive := rfl
  -- Both operands are packed and unpacked on their way in.
  have hvector : (zero - x).vector =
      (UnpackedFloat.sub Format.binary64
        (unpack Format.binary64 ((unpack Format.binary64 zero.vector).pack Format.binary64))
        (unpack Format.binary64 ((unpack Format.binary64 x.vector).pack Format.binary64))).pack
        Format.binary64 := rfl
  have hzeroVector : (unpack Format.binary64 zero.vector).pack Format.binary64 = zero.vector :=
    pack_unpack_vector rfl
  rw [hzeroVector, pack_unpack_vector hnan, hstart, zero_sub_unpacked (unpack_ne_zero hzero),
    ← unpack_neg, pack_unpack_vector hminus] at hvector
  exact congrArg Binary64.mk (UInt64.toBitVec_inj.1 hvector)

end PathQuery.Binary64
