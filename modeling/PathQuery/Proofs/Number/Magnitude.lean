/-
Sign and magnitude of binary64 numbers.

* **`Binary64.neg_neg`** — two changes of sign cancel;
* **`Binary64.eq_ofMagnitude`, `Binary64.neg_eq_ofMagnitude`** — a number is its magnitude, up to
  the sign;
* **`Binary64.nearest_scaled`** — a fraction and its multiples have the same nearest number;
* **`Binary64.nearest_units`** — the units of a finite number give back its magnitude.
-/
import Mathlib.Algebra.Group.Nat.Defs
import PathQuery.Number.Shortest

namespace PathQuery

namespace Binary64

/-! ### Signs -/

theorem toNat_bits_ofMagnitude {m : Nat} (h : m < 2 ^ 64) : (ofMagnitude m).bits.toNat = m :=
  UInt64.toNat_ofNat_of_lt' h

theorem magnitudeBits_lt (x : Binary64) : x.magnitudeBits < 2 ^ 63 := Nat.mod_lt _ (by decide)

theorem magnitudeBits_ofMagnitude {m : Nat} (h : m < 2 ^ 63) :
    (ofMagnitude m).magnitudeBits = m := by
  rw [magnitudeBits, toNat_bits_ofMagnitude (by omega)]
  exact Nat.mod_eq_of_lt h

theorem isNegative_ofMagnitude {m : Nat} (h : m < 2 ^ 63) : (ofMagnitude m).isNegative = false := by
  rw [isNegative, toNat_bits_ofMagnitude (by omega)]
  exact decide_eq_false (Nat.not_le.2 h)

theorem neg_neg (x : Binary64) : - -x = x := by
  show (⟨(x.bits ^^^ 0x8000000000000000) ^^^ 0x8000000000000000⟩ : Binary64) = x
  rw [UInt64.xor_assoc, UInt64.xor_self, UInt64.xor_zero]

theorem toNat_bits_neg (x : Binary64) : (-x).bits.toNat = x.bits.toNat ^^^ 2 ^ 63 :=
  UInt64.toNat_xor x.bits 0x8000000000000000

@[simp] theorem magnitudeBits_neg (x : Binary64) : (-x).magnitudeBits = x.magnitudeBits := by
  show (-x).bits.toNat % 2 ^ 63 = x.bits.toNat % 2 ^ 63
  rw [toNat_bits_neg, Nat.xor_mod_two_pow, Nat.mod_self, Nat.xor_zero]

@[simp] theorem isNaN_neg (x : Binary64) : (-x).isNaN = x.isNaN := by
  rw [isNaN, magnitudeBits_neg, isNaN]

@[simp] theorem isNegative_neg (x : Binary64) : (-x).isNegative = !x.isNegative := by
  have hlt : x.bits.toNat < 2 ^ 64 := x.bits.toNat_lt
  -- The sign is the quotient by `2 ^ 63`, zero or one.
  have hdiv : (-x).bits.toNat / 2 ^ 63 = x.bits.toNat / 2 ^ 63 ^^^ 1 := by
    rw [toNat_bits_neg, Nat.xor_div_two_pow, Nat.div_self (by decide)]
  show decide (2 ^ 63 ≤ (-x).bits.toNat) = !decide (2 ^ 63 ≤ x.bits.toNat)
  have hhalf : x.bits.toNat / 2 ^ 63 = 0 ∨ x.bits.toNat / 2 ^ 63 = 1 := by omega
  rcases hhalf with h | h <;> rw [h] at hdiv
  · have hneg : (-x).bits.toNat / 2 ^ 63 = 1 := hdiv
    rw [decide_eq_true (by omega), decide_eq_false (by omega)]
    rfl
  · have hneg : (-x).bits.toNat / 2 ^ 63 = 0 := hdiv
    rw [decide_eq_false (by omega), decide_eq_true (by omega)]
    rfl

theorem eq_ofMagnitude {x : Binary64} (h : x.isNegative = false) :
    x = ofMagnitude x.magnitudeBits := by
  have hlt : x.bits.toNat < 2 ^ 63 := Nat.not_le.1 (of_decide_eq_false h)
  rw [magnitudeBits, show x.bits.toNat % twoPow 63 = x.bits.toNat from Nat.mod_eq_of_lt hlt,
    ofMagnitude, UInt64.ofNat_toNat]

theorem neg_eq_ofMagnitude {x : Binary64} (h : x.isNegative = true) :
    -x = ofMagnitude x.magnitudeBits := by
  rw [eq_ofMagnitude (x := -x) (by simp [h]), magnitudeBits_neg]

/-! ### Nearest numbers -/

theorem roundDiv_scaled {k : Nat} (hk : 0 < k) (num den : Nat) :
    roundDiv (k * num) (k * den) = roundDiv num den := by
  rw [roundDiv, roundDiv, Nat.mul_div_mul_left num den hk, Nat.mul_mod_mul_left]
  have hlt : 2 * (k * (num % den)) < k * den ↔ 2 * (num % den) < den := by
    rw [Nat.mul_left_comm]
    exact Nat.mul_lt_mul_left hk
  have hgt : k * den < 2 * (k * (num % den)) ↔ den < 2 * (num % den) := by
    rw [Nat.mul_left_comm]
    exact Nat.mul_lt_mul_left hk
  simp only [hlt, hgt]

theorem nearest_scaled {k : Nat} (hk : 0 < k) (num den : Nat) :
    nearest (k * num) (k * den) = nearest num den := by
  rw [nearest, nearest, Nat.mul_assoc, Nat.mul_div_mul_left _ _ hk, Nat.mul_assoc,
    roundDiv_scaled hk]

theorem roundDiv_mul {n den : Nat} (hden : 0 < den) : roundDiv (n * den) den = n := by
  rw [roundDiv, Nat.mul_div_cancel n hden, Nat.mul_mod_left, if_pos (by omega)]

theorem lastPlace_of_lt {n : Nat} (h : n < 2 ^ 52) : lastPlace n = 0 := by
  rw [lastPlace]
  by_cases hzero : n = 0
  · rw [hzero]
    rfl
  · have hlog : Nat.log2 n < 52 := (Nat.log2_lt hzero).2 h
    omega

theorem lastPlace_mul {n : Nat} (hlow : 2 ^ 52 ≤ n) (hhigh : n < 2 ^ 53) (place : Nat) :
    lastPlace (n * twoPow place) = place := by
  have hlog : Nat.log2 (n * 2 ^ place) = 52 + place := by
    have hpos : 0 < 2 ^ place := Nat.two_pow_pos place
    rw [Nat.log2_eq_iff (Nat.ne_of_gt (Nat.mul_pos (by omega) hpos))]
    constructor
    · rw [Nat.pow_add]
      exact Nat.mul_le_mul_right _ hlow
    · rw [Nat.add_right_comm, Nat.pow_add]
      exact Nat.mul_lt_mul_of_pos_right hhigh hpos
  rw [lastPlace, show twoPow place = 2 ^ place from rfl, hlog, Nat.add_sub_cancel_left]

/-- The magnitude pattern counts the numbers from zero on: the places passed, and the steps since
the last one. -/
theorem units_eq (x : Binary64) : ∃ place steps, x.units = steps * twoPow place ∧
    lastPlace x.units = place ∧ place * twoPow 52 + steps = x.magnitudeBits := by
  have hsplit : twoPow 52 * x.exponentBits + x.fractionBits = x.magnitudeBits :=
    Nat.div_add_mod _ _
  have hfraction : x.fractionBits < 2 ^ 52 := Nat.mod_lt _ (by decide)
  have hpow : twoPow 52 = 2 ^ 52 := rfl
  by_cases he : x.exponentBits = 0
  · -- Below the first full exponent the fraction counts the units.
    have hunits : x.units = x.fractionBits := if_pos he
    refine ⟨0, x.fractionBits, by rw [hunits, twoPow_zero, Nat.mul_one], ?_, ?_⟩
    · rw [hunits, lastPlace_of_lt hfraction]
    · rw [he] at hsplit
      omega
  · -- From there on one more bit stands in front of the fraction.
    obtain ⟨e, he'⟩ := Nat.exists_eq_succ_of_ne_zero he
    have hunits : x.units = (2 ^ 52 + x.fractionBits) * twoPow e := by
      rw [units, if_neg he, he', Nat.succ_sub_one, hpow]
    refine ⟨e, 2 ^ 52 + x.fractionBits, hunits, ?_, ?_⟩
    · rw [hunits, lastPlace_mul (by omega) (by omega)]
    · rw [he', hpow] at hsplit
      rw [hpow]
      omega

/-- A finite number is nearest to its units. -/
theorem nearest_units {x : Binary64} (hx : x.isFinite = true) :
    nearest x.units unit = ofMagnitude x.magnitudeBits := by
  obtain ⟨place, rounded, hunits, hplace, hmagnitude⟩ := x.units_eq
  have hunit : 0 < unit := twoPow_pos 1074
  have hle : x.magnitudeBits < infinityBits := of_decide_eq_true hx
  rw [nearest, Nat.mul_div_cancel _ hunit, hplace, Nat.mul_comm x.units unit, roundDiv_scaled hunit,
    hunits, roundDiv_mul (twoPow_pos place), hmagnitude, Nat.min_eq_left (Nat.le_of_lt hle)]

end Binary64

end PathQuery
