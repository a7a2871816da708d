/-
Integers as binary64 numbers.

* **`Binary64.isFinite_ofInt`** — no integer of 64 binary digits is rounded to infinity;
* **`Binary64.eqv_self`** — a finite number equals itself.
-/
import PathQuery.Proofs.Number.ReadBack

namespace PathQuery

namespace Binary64

theorem roundDiv_le (num den : Nat) : roundDiv num den ≤ num / den + 1 := by
  have hmod : num / den % 2 < 2 := Nat.mod_lt _ (by decide)
  rw [roundDiv]
  split
  · exact Nat.le_succ _
  · split
    · exact Nat.le_refl _
    · omega

/-- Up to the last place there are at most fifty-three binary digits. -/
theorem div_lastPlace_lt (n : Nat) : n / twoPow (lastPlace n) < 2 ^ 53 := by
  have hlog : n < 2 ^ (Nat.log2 n + 1) := Nat.lt_log2_self
  have hle : Nat.log2 n + 1 ≤ lastPlace n + 53 := by
    rw [lastPlace]
    omega
  refine Nat.div_lt_of_lt_mul (Nat.lt_of_lt_of_le hlog ?_)
  rw [show twoPow (lastPlace n) = 2 ^ lastPlace n from rfl, ← Nat.pow_add]
  exact Nat.pow_le_pow_right (by decide) hle

theorem log2_mul_twoPow_le {n k : Nat} (h : n < 2 ^ k) (e : Nat) :
    Nat.log2 (n * twoPow e) ≤ k + e := by
  by_cases hzero : n * twoPow e = 0
  · rw [hzero]
    exact Nat.zero_le _
  · refine Nat.le_of_lt ?_
    rw [Nat.log2_lt hzero, Nat.pow_add]
    exact Nat.mul_lt_mul_of_pos_right h (twoPow_pos e)

/-- A natural number of 64 binary digits is far from infinite. -/
theorem isFinite_ofNat {n : Nat} (h : n < 2 ^ 64) : (ofNat n).isFinite = true := by
  have hplace : lastPlace (n * unit) ≤ 1086 := by
    have hlog : Nat.log2 (n * unit) ≤ 64 + 1074 := log2_mul_twoPow_le h 1074
    rw [lastPlace]
    omega
  have hround := roundDiv_le (n * unit) (twoPow (lastPlace (n * unit)))
  have hdigits := div_lastPlace_lt (n * unit)
  have hpow : twoPow 52 = 2 ^ 52 := rfl
  have hlt : lastPlace (n * unit) * twoPow 52 +
      roundDiv (n * unit) (twoPow (lastPlace (n * unit))) < infinityBits := by
    rw [infinityBits, hpow]
    omega
  rw [ofNat, nearest, Nat.div_one, Nat.one_mul, Nat.min_eq_left (Nat.le_of_lt hlt)]
  refine decide_eq_true ?_
  rwa [magnitudeBits_ofMagnitude (Nat.lt_trans hlt infinityBits_lt)]

theorem isFinite_ofInt {n : Int} (h : n.natAbs < 2 ^ 64) : (ofInt n).isFinite = true := by
  have hnat := isFinite_ofNat h
  rw [ofInt]
  split
  · rw [isFinite, magnitudeBits_neg]
    exact hnat
  · exact hnat

theorem eqv_self {x : Binary64} (h : x.isFinite = true) : x.eqv x = true := by
  have hlt : x.magnitudeBits < infinityBits := of_decide_eq_true h
  have hnan : x.isNaN = false := decide_eq_false (Nat.not_lt.2 (Nat.le_of_lt hlt))
  rw [eqv, compare?, hnan]
  simp

end Binary64

end PathQuery
