/-
Which numerals are too large for a float.

Half a step beyond the largest float lies `2 ^ 1024 - 2 ^ 970` (`Binary64.overflow`).  A fraction is
rounded to infinity from there on and not before:

* **`Binary64.le_roundDiv_iff`** — a quotient is rounded up to an even number from half a step
  below;
* **`Binary64.nearest_eq_infinity_iff`** — so a fraction is nearest to infinity at `overflow` or
  beyond;
* **`Numeral.toBinary64_eq_infinity_iff`** — and a numeral stands for it there, however many digits
  it has.
-/
import PathQuery.Proofs.Number.Rounding

namespace PathQuery

namespace Binary64

/-- Half a step beyond the largest finite number. -/
def overflow : Nat := twoPow 1024 - twoPow 970

theorem overflow_add : overflow + twoPow 970 = twoPow 1024 := by
  have hle : twoPow 970 ≤ twoPow 1024 := twoPow_le (by decide)
  rw [overflow, Nat.sub_add_cancel hle]

theorem overflow_le : overflow ≤ twoPow 1024 := Nat.sub_le _ _

theorem le_overflow : twoPow 1023 ≤ overflow := by
  have hsplit : twoPow 1024 = twoPow 1023 + twoPow 1023 := by
    rw [twoPow_succ 1023, Nat.mul_two]
  have hle : twoPow 970 ≤ twoPow 1023 := twoPow_le (by decide)
  have hadd := overflow_add
  omega

/-! ### Rounding up to an even number -/

/-- A tie goes to the even neighbour, so an even number is reached from half a step below it. -/
theorem le_roundDiv_iff {num den count : Nat} (hden : 0 < den) (heven : count % 2 = 0) :
    count ≤ roundDiv num den ↔ 2 * (count * den) ≤ 2 * num + den := by
  have hnum := Nat.div_add_mod num den
  have hrest := Nat.mod_lt num hden
  by_cases hle : count ≤ num / den
  · have hreached : count ≤ roundDiv num den := Nat.le_trans hle (le_roundDiv num den)
    have hmul : count * den ≤ num :=
      Nat.le_trans (Nat.mul_le_mul_right den hle) (Nat.div_mul_le_self num den)
    exact iff_of_true hreached (by omega)
  obtain rfl | hbeyond := Nat.eq_or_lt_of_le (Nat.lt_of_not_le hle)
  · -- The quotient is odd, so what is left decides, and a half is enough.
    have hodd : num / den % 2 = 1 := by omega
    have hmul : (num / den).succ * den = den * (num / den) + den := by
      rw [Nat.succ_mul, Nat.mul_comm]
    rw [roundDiv, hmul, hodd]
    split_ifs <;> omega
  · have hround := roundDiv_le num den
    have hmul : (num / den + 2) * den ≤ count * den := Nat.mul_le_mul_right den hbeyond
    rw [Nat.add_mul, Nat.mul_comm (num / den)] at hmul
    exact iff_of_false (by omega) (by omega)

/-! ### Beyond the largest number -/

theorem ofMagnitude_eq_infinity_iff {m : Nat} (h : m ≤ infinityBits) :
    ofMagnitude m = infinity ↔ m = infinityBits := by
  refine ⟨fun heq => ?_, fun heq => congrArg ofMagnitude heq⟩
  rw [← magnitudeBits_ofMagnitude (Nat.lt_of_le_of_lt h infinityBits_lt), heq]
  exact magnitudeBits_ofMagnitude infinityBits_lt

theorem unit_pos : 0 < unit := twoPow_pos 1074

theorem lastPlace_le_iff {n place : Nat} : lastPlace n ≤ place ↔ n < twoPow (place + 53) := by
  by_cases hzero : n = 0
  · rw [hzero]
    exact iff_of_true (Nat.zero_le _) (twoPow_pos _)
  · rw [lastPlace, show twoPow (place + 53) = 2 ^ (place + 53) from rfl, ← Nat.log2_lt hzero]
    omega

/-- The last place of a fraction, whose units may be no whole number. -/
theorem lastPlace_div_le_iff {num den : Nat} (hden : 0 < den) (e : Nat) :
    lastPlace (num * unit / den) ≤ e + 1021 ↔ num < twoPow e * den := by
  have hpow : twoPow (e + 1021 + 53) * den = twoPow e * den * unit := by
    rw [unit, Nat.mul_right_comm, ← twoPow_add]
  rw [lastPlace_le_iff, Nat.div_lt_iff_lt_mul hden, hpow, Nat.mul_lt_mul_right unit_pos]

/-- In the last binade of finite numbers infinity is one step behind the largest of them. -/
theorem infinityBits_le_iff {num den : Nat} (hden : 0 < den) :
    infinityBits ≤ 2045 * twoPow 52 + roundDiv (num * unit) (den * twoPow 2045) ↔
      overflow * den ≤ num := by
  have hbits : infinityBits = 2045 * twoPow 52 + twoPow 53 := by decide
  have hsteps : 2 * (twoPow 53 * (den * twoPow 2045)) = twoPow 1024 * den * twoPow 1075 := by
    rw [Nat.mul_left_comm (twoPow 53), ← twoPow_add, Nat.mul_left_comm, Nat.mul_comm 2,
      ← twoPow_succ, Nat.mul_right_comm, ← twoPow_add, Nat.mul_comm]
  have hhalf : den * twoPow 2045 = twoPow 970 * den * twoPow 1075 := by
    rw [Nat.mul_right_comm, ← twoPow_add, Nat.mul_comm]
  have hunits : 2 * (num * unit) = num * twoPow 1075 := by
    rw [unit, twoPow_succ 1074, Nat.mul_left_comm, Nat.mul_comm 2]
  rw [hbits, Nat.add_le_add_iff_left,
    le_roundDiv_iff (Nat.mul_pos hden (twoPow_pos 2045)) (by decide), hsteps, hunits, hhalf,
    ← Nat.add_mul, Nat.mul_le_mul_right_iff (twoPow_pos 1075), ← overflow_add, Nat.add_mul,
    Nat.add_le_add_iff_right]

/-- From half a step beyond the largest number on a fraction is nearest to infinity, and before that
it is not. -/
theorem nearest_eq_infinity_iff {num den : Nat} (hden : 0 < den) :
    nearest num den = infinity ↔ overflow * den ≤ num := by
  have hdiv := Nat.div_div_eq_div_mul (num * unit) den (twoPow (lastPlace (num * unit / den)))
  have hmin : ∀ m, min m infinityBits = infinityBits ↔ infinityBits ≤ m := by omega
  have hpow : twoPow 52 = 2 ^ 52 := rfl
  have hbits : infinityBits = 2047 * 2 ^ 52 := rfl
  rw [nearest, ofMagnitude_eq_infinity_iff (Nat.min_le_right _ _), hmin, hpow]
  obtain hlt | heq | hgt := Nat.lt_trichotomy (lastPlace (num * unit / den)) 2045
  · -- Below the last binade there are steps left.
    have hround := roundDiv_le (num * unit) (den * twoPow (lastPlace (num * unit / den)))
    have hdigits := div_lastPlace_lt (num * unit / den)
    have hnum : num < twoPow 1023 * den := by
      rw [← lastPlace_div_le_iff hden]
      omega
    have hle : twoPow 1023 * den ≤ overflow * den := Nat.mul_le_mul_right den le_overflow
    rw [← hdiv] at hround
    exact iff_of_false (by omega) (Nat.not_le.2 (Nat.lt_of_lt_of_le hnum hle))
  · rw [heq, ← hpow]
    exact infinityBits_le_iff hden
  · have hround := le_roundDiv (num * unit) (den * twoPow (lastPlace (num * unit / den)))
    have hdigits := le_div_lastPlace (Nat.zero_lt_of_lt hgt)
    have hnum : twoPow 1024 * den ≤ num := by
      rw [← Nat.not_lt, ← lastPlace_div_le_iff hden]
      omega
    have hle : overflow * den ≤ twoPow 1024 * den := Nat.mul_le_mul_right den overflow_le
    rw [← hdiv] at hround
    exact iff_of_true (by omega) (Nat.le_trans hle hnum)

end Binary64

/-! ### Numerals -/

namespace Numeral

open Binary64

theorem overflow_le_tenPow : overflow ≤ tenPow 310 := by decide +kernel

/-- A numeral is no NaN, so it is finite unless it is infinite. -/
theorem isFinite_toBinary64_iff (n : Numeral) :
    n.toBinary64.isFinite = true ↔ n.toBinary64 ≠ infinity := by
  obtain ⟨m, hm, h⟩ := n.exists_magnitude
  rw [h, Ne, ofMagnitude_eq_infinity_iff hm, isFinite, decide_eq_true_eq,
    magnitudeBits_ofMagnitude (Nat.lt_of_le_of_lt hm infinityBits_lt)]
  omega

/-- The digits in front of the point decide where no power of ten is computed. -/
theorem wholeDigits_eq {n : Numeral} (hn : n.coefficient ≠ 0) :
    n.wholeDigits = (Nat.toDigits 10 (n.coefficient * tenPow n.exponent.toNat)).length -
      ((-n.exponent).toNat : Int) := by
  rw [length_toDigits_mul_tenPow (Nat.pos_of_ne_zero hn), wholeDigits, digits]
  omega

/-- A numeral is rounded to infinity from half a step beyond the largest number on, and before that
it is not. -/
theorem toBinary64_eq_infinity_iff (n : Numeral) :
    n.toBinary64 = infinity ↔
      overflow * tenPow (-n.exponent).toNat ≤ n.coefficient * tenPow n.exponent.toNat := by
  have hoverflow : 0 < overflow := Nat.lt_of_lt_of_le (twoPow_pos 1023) le_overflow
  have hden := tenPow_pos (-n.exponent).toNat
  have hzero : zero ≠ infinity := by decide
  rw [toBinary64]
  by_cases hc : n.coefficient = 0
  · rw [if_pos hc, hc, Nat.zero_mul]
    exact iff_of_false hzero (Nat.not_le.2 (Nat.mul_pos hoverflow hden))
  rw [if_neg hc, wholeDigits_eq hc]
  generalize n.coefficient * tenPow n.exponent.toNat = num
  generalize (-n.exponent).toNat = places at hden ⊢
  split_ifs with hlarge hsmall
  · -- More than 310 digits are left in front of the point.
    have hlength : ¬ (Nat.toDigits 10 num).length ≤ 310 + places := by omega
    rw [length_toDigits_le (by omega), Nat.not_lt, tenPow_add] at hlength
    exact iff_of_true rfl (Nat.le_trans (Nat.mul_le_mul_right _ overflow_le_tenPow) hlength)
  · have hlength : (Nat.toDigits 10 num).length ≤ places := by omega
    rw [length_toDigits_le (by omega)] at hlength
    have hle : tenPow places ≤ overflow * tenPow places := Nat.le_mul_of_pos_left _ hoverflow
    exact iff_of_false hzero (Nat.not_le.2 (Nat.lt_of_lt_of_le hlength hle))
  · exact nearest_eq_infinity_iff hden

end Numeral

end PathQuery
