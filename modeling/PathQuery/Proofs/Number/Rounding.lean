/-
Rounding keeps the order.

The magnitude pattern of the number nearest to so many units counts the places passed and the steps
since the last one (`Binary64.steps`).  Within a place a larger number of units is not rounded to
fewer steps, and where a place ends there are as many steps as at the start of the next:

* **`Binary64.steps_mono`** — more units, no fewer steps;
* **`Binary64.rank_ofInt_mono`** — so a larger integer is not rounded to a smaller number;
* **`Binary64.units_ofNat`** — and integers up to `2 ^ 53` are not changed;
* **`Binary64.rank_ofInt_ne`** — below that no integer is rounded like another one.
-/
import Mathlib.Tactic.SplitIfs
import PathQuery.Proofs.Number.Integers

namespace PathQuery.Binary64

theorem le_roundDiv (num den : Nat) : num / den ≤ roundDiv num den := by
  rw [roundDiv]
  split
  · exact Nat.le_refl _
  · split
    · exact Nat.le_succ _
    · exact Nat.le_add_right _ _

theorem roundDiv_mono {num num' den : Nat} (h : num ≤ num') :
    roundDiv num den ≤ roundDiv num' den := by
  have hdiv : num / den ≤ num' / den := Nat.div_le_div_right h
  obtain hlt | heq := Nat.lt_or_eq_of_le hdiv
  · calc roundDiv num den
        ≤ num / den + 1 := roundDiv_le num den
      _ ≤ num' / den := hlt
      _ ≤ roundDiv num' den := le_roundDiv num' den
  · -- With one quotient the rests decide.
    have hrest : num % den ≤ num' % den := by
      have hnum := Nat.div_add_mod num den
      have hnum' := Nat.div_add_mod num' den
      rw [← heq] at hnum'
      omega
    have hparity : num / den % 2 < 2 := Nat.mod_lt _ (by decide)
    rw [roundDiv, roundDiv, ← heq]
    split_ifs <;> omega

/-- The places passed below a number of units, and the steps since the last one. -/
def steps (units : Nat) : Nat :=
  lastPlace units * twoPow 52 + roundDiv units (twoPow (lastPlace units))

theorem lastPlace_mono {m n : Nat} (h : m ≤ n) : lastPlace m ≤ lastPlace n := by
  refine Nat.sub_le_sub_right ?_ 52
  by_cases hzero : m = 0
  · rw [hzero]
    exact Nat.zero_le _
  · rw [Nat.le_log2 (by omega)]
    exact Nat.le_trans (Nat.log2_self_le hzero) h

/-- Beyond the first place there are at least fifty-three binary digits up to the last one. -/
theorem le_div_lastPlace {n : Nat} (h : 0 < lastPlace n) : 2 ^ 52 ≤ n / twoPow (lastPlace n) := by
  have hne : n ≠ 0 := by
    rintro rfl
    exact absurd h (by decide)
  have hlog : Nat.log2 n = 52 + lastPlace n := by
    rw [lastPlace] at h ⊢
    omega
  rw [Nat.le_div_iff_mul_le (twoPow_pos _)]
  calc 2 ^ 52 * twoPow (lastPlace n)
      = 2 ^ Nat.log2 n := by rw [hlog, Nat.pow_add]; rfl
    _ ≤ n := Nat.log2_self_le hne

theorem steps_mono {m n : Nat} (h : m ≤ n) : steps m ≤ steps n := by
  obtain hlt | heq := Nat.lt_or_eq_of_le (lastPlace_mono h)
  · -- The steps of a place end where those of the next begin.
    have hm : roundDiv m (twoPow (lastPlace m)) ≤ 2 ^ 53 :=
      Nat.le_trans (roundDiv_le _ _) (div_lastPlace_lt m)
    have hn : 2 ^ 52 ≤ roundDiv n (twoPow (lastPlace n)) :=
      Nat.le_trans (le_div_lastPlace (Nat.zero_lt_of_lt hlt)) (le_roundDiv _ _)
    have hpow : twoPow 52 = 2 ^ 52 := rfl
    rw [steps, steps, hpow]
    omega
  · rw [steps, steps, heq]
    exact Nat.add_le_add_left (roundDiv_mono h) _

/-! ### Ranks -/

theorem ofNat_eq_ofMagnitude (n : Nat) :
    ofNat n = ofMagnitude (min (steps (n * unit)) infinityBits) := by
  rw [ofNat, nearest, Nat.div_one, Nat.one_mul, steps]

theorem rank_ofMagnitude {m : Nat} (h : m ≤ infinityBits) : (ofMagnitude m).rank = m := by
  have hlt : m < 2 ^ 63 := Nat.lt_of_le_of_lt h infinityBits_lt
  rw [rank, isNegative_ofMagnitude hlt, magnitudeBits_ofMagnitude hlt]
  rfl

theorem rank_ofNat (n : Nat) : (ofNat n).rank = (min (steps (n * unit)) infinityBits : Nat) := by
  rw [ofNat_eq_ofMagnitude, rank_ofMagnitude (Nat.min_le_right _ _)]

theorem rank_neg (x : Binary64) : (-x).rank = -x.rank := by
  rw [rank, rank, isNegative_neg, magnitudeBits_neg]
  cases x.isNegative <;> simp

theorem rank_ofNat_mono {m n : Nat} (h : m ≤ n) : (ofNat m).rank ≤ (ofNat n).rank := by
  have hsteps := steps_mono (Nat.mul_le_mul_right unit h)
  rw [rank_ofNat, rank_ofNat]
  omega

theorem rank_ofNat_nonneg (n : Nat) : 0 ≤ (ofNat n).rank := by
  rw [rank_ofNat]
  omega

theorem rank_ofInt (n : Int) :
    (ofInt n).rank = if n < 0 then -(ofNat n.natAbs).rank else (ofNat n.natAbs).rank := by
  rw [ofInt]
  split
  · exact rank_neg _
  · rfl

/-- A larger integer is not rounded to a smaller number. -/
theorem rank_ofInt_mono {m n : Int} (h : m ≤ n) : (ofInt m).rank ≤ (ofInt n).rank := by
  have hm := rank_ofNat_nonneg m.natAbs
  have hn := rank_ofNat_nonneg n.natAbs
  rw [rank_ofInt, rank_ofInt]
  split <;> split
  · have hmono : (ofNat n.natAbs).rank ≤ (ofNat m.natAbs).rank := rank_ofNat_mono (by omega)
    omega
  · omega
  · omega
  · exact rank_ofNat_mono (by omega)

/-! ### Integers that are floats -/

/-- A number whose last place is `place`, with the fifty-three digits of `count` up to it. -/
theorem units_ofMagnitude {place count : Nat} (hlow : 2 ^ 52 ≤ count) (hhigh : count < 2 ^ 53)
    (hlt : place * twoPow 52 + count < infinityBits) :
    (ofMagnitude (place * twoPow 52 + count)).units = count * twoPow place := by
  have hpow : twoPow 52 = 2 ^ 52 := rfl
  have hbits : (ofMagnitude (place * twoPow 52 + count)).magnitudeBits =
      place * twoPow 52 + count := magnitudeBits_ofMagnitude (Nat.lt_trans hlt infinityBits_lt)
  have hexponent : (ofMagnitude (place * twoPow 52 + count)).exponentBits = place + 1 := by
    rw [exponentBits, hbits, hpow]
    omega
  have hfraction : (ofMagnitude (place * twoPow 52 + count)).fractionBits = count - 2 ^ 52 := by
    rw [fractionBits, hbits, hpow]
    omega
  rw [units, hexponent, hfraction, if_neg (Nat.succ_ne_zero place), Nat.add_sub_cancel, hpow,
    Nat.add_sub_cancel' hlow]

/-- Up to `2 ^ 53` every natural number is a float. -/
theorem units_ofNat {n : Nat} (h : n ≤ 2 ^ 53) : (ofNat n).units = n * unit := by
  obtain rfl | hpos := Nat.eq_zero_or_pos n
  · decide +kernel
  obtain rfl | hlt := Nat.eq_or_lt_of_le h
  · decide +kernel
  -- Zeros behind the digits of `n` make them fifty-three.
  obtain ⟨zeros, hzeros⟩ : ∃ zeros, Nat.log2 n + zeros = 52 :=
    ⟨52 - Nat.log2 n, by have := (Nat.log2_lt (by omega)).2 hlt; omega⟩
  have hlow : 2 ^ 52 ≤ n * 2 ^ zeros := by
    rw [← hzeros, Nat.pow_add]
    exact Nat.mul_le_mul_right _ (Nat.log2_self_le (by omega))
  have hhigh : n * 2 ^ zeros < 2 ^ 53 := by
    rw [show 53 = Nat.log2 n + 1 + zeros by omega, Nat.pow_add]
    exact Nat.mul_lt_mul_of_pos_right Nat.lt_log2_self (Nat.two_pow_pos zeros)
  have hunits : n * unit = n * 2 ^ zeros * twoPow (1074 - zeros) := by
    rw [Nat.mul_assoc, show 2 ^ zeros = twoPow zeros from rfl, ← twoPow_add,
      Nat.add_sub_cancel' (by omega), unit]
  have hsteps : steps (n * unit) = (1074 - zeros) * twoPow 52 + n * 2 ^ zeros := by
    rw [hunits, steps, lastPlace_mul hlow hhigh, roundDiv_mul (twoPow_pos _)]
  have hfinite : (1074 - zeros) * twoPow 52 + n * 2 ^ zeros < infinityBits := by
    rw [infinityBits, show twoPow 52 = 2 ^ 52 from rfl]
    omega
  rw [ofNat_eq_ofMagnitude, hsteps, Nat.min_eq_left (Nat.le_of_lt hfinite),
    units_ofMagnitude hlow hhigh hfinite, hunits]

theorem rank_ofNat_lt_succ {n : Nat} (h : n < 2 ^ 53) : (ofNat n).rank < (ofNat (n + 1)).rank := by
  refine Int.lt_iff_le_and_ne.2 ⟨rank_ofNat_mono (Nat.le_succ n), fun heq => ?_⟩
  rw [rank_ofNat, rank_ofNat, Int.natCast_inj] at heq
  -- One magnitude has one number of units.
  have hunits : n * unit = (n + 1) * unit := by
    rw [← units_ofNat (Nat.le_of_lt h), ← units_ofNat h, ofNat_eq_ofMagnitude, heq,
      ← ofNat_eq_ofMagnitude]
  exact Nat.ne_of_lt (Nat.mul_lt_mul_of_pos_right (Nat.lt_succ_self n) (twoPow_pos 1074)) hunits

theorem rank_ofInt_lt_succ {n : Int} (h : n.natAbs < 2 ^ 53 ∨ (n + 1).natAbs < 2 ^ 53) :
    (ofInt n).rank < (ofInt (n + 1)).rank := by
  rw [rank_ofInt, rank_ofInt]
  by_cases hneg : n < 0
  · -- Negative numbers count down to zero.
    obtain ⟨k, hk⟩ : ∃ k : Nat, n = -(k + 1 : Nat) := ⟨n.natAbs - 1, by omega⟩
    have hlt : (ofNat k).rank < (ofNat (k + 1)).rank := rank_ofNat_lt_succ (by omega)
    have hnonneg := rank_ofNat_nonneg k
    rw [if_pos hneg, show n.natAbs = k + 1 by omega, show (n + 1).natAbs = k by omega]
    split <;> omega
  · rw [if_neg hneg, if_neg (by omega), show (n + 1).natAbs = n.natAbs + 1 by omega]
    exact rank_ofNat_lt_succ (by omega)

/-- Only integers from `2 ^ 53` on are rounded like another one. -/
theorem rank_ofInt_ne {m n : Int} (hne : m ≠ n) (h : m.natAbs < 2 ^ 53) :
    (ofInt m).rank ≠ (ofInt n).rank := by
  obtain hlt | hlt := Int.lt_or_gt_of_ne hne
  · have hstep : (ofInt m).rank < (ofInt (m + 1)).rank := rank_ofInt_lt_succ (.inl h)
    have hmono : (ofInt (m + 1)).rank ≤ (ofInt n).rank := rank_ofInt_mono hlt
    omega
  · have hstep : (ofInt (m - 1)).rank < (ofInt (m - 1 + 1)).rank :=
      rank_ofInt_lt_succ (.inr (by rwa [Int.sub_add_cancel]))
    have hmono : (ofInt n).rank ≤ (ofInt (m - 1)).rank := rank_ofInt_mono (Int.le_sub_one_of_lt hlt)
    rw [Int.sub_add_cancel] at hstep
    omega

end PathQuery.Binary64
