/-
The text of a finite number reads back as the number.

* **`Binary64.readsBack_exactNumeral`** — all digits of a number give the number back, so the search
  for fewer digits never fails;
* **`Binary64.toBinary64_shortest`** — the shortest numeral gives the magnitude back;
* **`Numeral.exists_isWritten`** — a numeral written out with a point has the value of the numeral.
-/
import PathQuery.Proofs.Number.Magnitude
import PathQuery.Expr.Canonical

namespace PathQuery

/-! ### Numerals as magnitudes -/

namespace Binary64

theorem infinityBits_lt : infinityBits < 2 ^ 63 := by decide

end Binary64

namespace Numeral

open Binary64

/-- Numerals stand for numbers without a sign, and not for a NaN. -/
theorem exists_magnitude (n : Numeral) : ∃ m ≤ infinityBits, n.toBinary64 = ofMagnitude m := by
  unfold toBinary64
  split
  · exact ⟨0, Nat.zero_le _, rfl⟩
  · split
    · exact ⟨infinityBits, Nat.le_refl _, rfl⟩
    · split
      · exact ⟨0, Nat.zero_le _, rfl⟩
      · exact ⟨_, Nat.min_le_right _ _, rfl⟩

theorem isNaN_toBinary64 (n : Numeral) : n.toBinary64.isNaN = false := by
  obtain ⟨m, hm, h⟩ := n.exists_magnitude
  rw [h, isNaN, magnitudeBits_ofMagnitude (Nat.lt_of_le_of_lt hm infinityBits_lt)]
  exact decide_eq_false (Nat.not_lt.2 hm)

/-- A numeral that reads back as the magnitude of a number is that magnitude. -/
theorem toBinary64_of_readsBack {x : Binary64} {n : Numeral} (h : x.readsBack n = true) :
    n.toBinary64 = ofMagnitude x.magnitudeBits := by
  obtain ⟨m, hm, hn⟩ := n.exists_magnitude
  have hmagnitude : n.toBinary64.magnitudeBits = x.magnitudeBits := by
    simpa [readsBack] using h
  rw [← hmagnitude, hn, magnitudeBits_ofMagnitude (Nat.lt_of_le_of_lt hm infinityBits_lt)]

/-! ### Trailing zeros -/

theorem toDigits_mul_ten {n : Nat} (hn : 0 < n) :
    Nat.toDigits 10 (n * 10) = Nat.toDigits 10 n ++ ['0'] := by
  have h := Nat.toDigits_append_toDigits (b := 10) (n := n) (d := 0) (by decide) hn (by decide)
  rw [Nat.add_zero, Nat.toDigits_zero, Nat.mul_comm] at h
  exact h.symm

theorem length_toDigits_mul_tenPow {n : Nat} (hn : 0 < n) (k : Nat) :
    (Nat.toDigits 10 (n * tenPow k)).length = (Nat.toDigits 10 n).length + k := by
  induction k with
  | zero => rw [tenPow_zero, Nat.mul_one, Nat.add_zero]
  | succ k ih =>
    rw [tenPow_succ, ← Nat.mul_assoc, toDigits_mul_ten (Nat.mul_pos hn (tenPow_pos k)),
      List.length_append, ih]
    rfl

/-- Zeros may move from the exponent to the coefficient, with one more for a decimal place. -/
theorem toBinary64_shifted (coefficient exponent : Nat) :
    toBinary64 ⟨coefficient * tenPow (exponent + 1), -1⟩ = toBinary64 ⟨coefficient, exponent⟩ := by
  by_cases hc : coefficient = 0
  · subst hc
    simp [toBinary64]
  have hpos : 0 < coefficient := Nat.pos_of_ne_zero hc
  have hne : coefficient * tenPow (exponent + 1) ≠ 0 :=
    Nat.ne_of_gt (Nat.mul_pos hpos (tenPow_pos _))
  -- The point stays where it is, and the fraction is only written with a factor of ten.
  have hwhole : wholeDigits ⟨coefficient * tenPow (exponent + 1), -1⟩ =
      wholeDigits ⟨coefficient, exponent⟩ := by
    simp only [wholeDigits, digits, length_toDigits_mul_tenPow hpos]
    omega
  have hnearest : nearest (coefficient * tenPow (exponent + 1) * tenPow 0) (tenPow 1) =
      nearest (coefficient * tenPow exponent) (tenPow 0) := by
    rw [tenPow_zero, Nat.mul_one, tenPow_succ exponent, ← Nat.mul_assoc, Nat.mul_comm _ 10,
      ← nearest_scaled (k := 10) (by decide) (coefficient * tenPow exponent) 1]
    rfl
  simp only [toBinary64, if_neg hne, if_neg hc, hwhole]
  rw [show ((-1 : Int)).toNat = 0 from rfl, show (-(-1 : Int)).toNat = 1 from rfl,
    Int.toNat_natCast, show (-(exponent : Int)).toNat = 0 by omega, hnearest]

end Numeral

namespace Binary64

/-! ### The shortest numeral -/

theorem twoPow_le {m n : Nat} (h : m ≤ n) : twoPow m ≤ twoPow n :=
  Nat.pow_le_pow_right (by decide) h

theorem units_lt {x : Binary64} (hx : x.isFinite = true) : x.units < twoPow 2098 := by
  have hle : x.magnitudeBits < 2047 * twoPow 52 := of_decide_eq_true hx
  have hfraction : x.fractionBits < twoPow 52 := Nat.mod_lt _ (twoPow_pos 52)
  have hexponent : x.exponentBits < 2047 := Nat.div_lt_of_lt_mul (by rwa [Nat.mul_comm])
  have hpow : twoPow 52 ≤ twoPow 2098 := twoPow_le (by decide)
  rw [units]
  split
  · exact Nat.lt_of_lt_of_le hfraction hpow
  · have hplace : twoPow (x.exponentBits - 1) ≤ twoPow 2045 := twoPow_le (by omega)
    have hsteps : twoPow 52 + x.fractionBits < twoPow 53 := by
      rw [twoPow_succ 52]
      omega
    calc (twoPow 52 + x.fractionBits) * twoPow (x.exponentBits - 1)
        ≤ (twoPow 52 + x.fractionBits) * twoPow 2045 := Nat.mul_le_mul_left _ hplace
      _ < twoPow 53 * twoPow 2045 := Nat.mul_lt_mul_of_pos_right hsteps (twoPow_pos _)
      _ = twoPow 2098 := (twoPow_add 53 2045).symm

theorem units_pos {x : Binary64} (hx : x.isZero = false) : 0 < x.units := by
  obtain ⟨place, steps, hunits, hplace, hmagnitude⟩ := x.units_eq
  refine Nat.pos_of_ne_zero fun h => ?_
  rw [h, show lastPlace 0 = 0 from rfl] at hplace
  subst hplace
  rw [h, twoPow_zero, Nat.mul_one] at hunits
  rw [← hunits] at hmagnitude
  rw [isZero, ← hmagnitude] at hx
  exact absurd hx (by decide)

/-- Five to the power `n`. -/
def fivePow (n : Nat) : Nat := Nat.pow 5 n

theorem fivePow_pos (n : Nat) : 0 < fivePow n := Nat.pow_pos (by decide)

theorem fivePow_mul_twoPow (n : Nat) : fivePow n * twoPow n = tenPow n := (Nat.mul_pow 5 2 n).symm

theorem exactNumeral_eq (x : Binary64) : x.exactNumeral = ⟨x.units * fivePow 1074, -1074⟩ := by
  -- For any exponent, so that the power is not computed.
  have h : ∀ n, (⟨x.units * Nat.pow 5 n, -1074⟩ : Numeral) = ⟨x.units * fivePow n, -1074⟩ :=
    fun _ => rfl
  exact h 1074

/-- A number has more than `k` digits from ten to the power `k` on. -/
theorem length_toDigits_le {n k : Nat} (hk : 0 < k) :
    (Nat.toDigits 10 n).length ≤ k ↔ n < tenPow k :=
  Nat.length_toDigits_le_iff (by decide) hk

/-- The digits of the exact numeral are few enough on both sides of the point. -/
theorem wholeDigits_exactNumeral {x : Binary64} (hx : x.isFinite = true) (hz : x.isZero = false) :
    -330 ≤ x.exactNumeral.wholeDigits ∧ x.exactNumeral.wholeDigits ≤ 310 := by
  -- The units are below `2 ^ 2098`, so the coefficient is below `2 ^ 1024 * 10 ^ 1074`.
  have hupper : x.units * fivePow 1074 < tenPow 1384 := by
    have hten : twoPow 1024 ≤ tenPow 310 := by decide +kernel
    calc x.units * fivePow 1074
        < twoPow 2098 * fivePow 1074 := Nat.mul_lt_mul_of_pos_right (units_lt hx) (fivePow_pos _)
      _ = twoPow 1024 * (fivePow 1074 * twoPow 1074) := by
        rw [show twoPow 2098 = twoPow 1024 * twoPow 1074 from twoPow_add 1024 1074, Nat.mul_assoc,
          Nat.mul_comm (twoPow 1074)]
      _ ≤ tenPow 310 * (fivePow 1074 * twoPow 1074) := Nat.mul_le_mul_right _ hten
      _ = tenPow 1384 := by rw [fivePow_mul_twoPow, ← tenPow_add]
  have hlower : tenPow 744 ≤ x.units * fivePow 1074 := by
    have hfive : tenPow 744 ≤ fivePow 1074 := by decide +kernel
    exact Nat.le_trans hfive (Nat.le_mul_of_pos_left _ (units_pos hz))
  rw [exactNumeral_eq, Numeral.wholeDigits, Numeral.digits]
  generalize x.units * fivePow 1074 = coefficient at hupper hlower
  have hmost : (Nat.toDigits 10 coefficient).length ≤ 1384 :=
    (length_toDigits_le (by decide)).2 hupper
  have hleast : ¬ (Nat.toDigits 10 coefficient).length ≤ 744 := by
    rw [length_toDigits_le (by decide)]
    exact Nat.not_lt.2 hlower
  dsimp only
  omega

/-- All digits of a number give it back. -/
theorem readsBack_exactNumeral {x : Binary64} (hx : x.isFinite = true) (hz : x.isZero = false) :
    x.readsBack x.exactNumeral = true := by
  obtain ⟨hlow, hhigh⟩ := wholeDigits_exactNumeral hx hz
  have hne : x.exactNumeral.coefficient ≠ 0 := by
    rw [exactNumeral_eq]
    exact Nat.ne_of_gt (Nat.mul_pos (units_pos hz) (fivePow_pos 1074))
  have hvalue : x.exactNumeral.toBinary64 = ofMagnitude x.magnitudeBits := by
    rw [Numeral.toBinary64, if_neg hne, if_neg (by omega), if_neg (by omega), exactNumeral_eq,
      show (-1074 : Int).toNat = 0 from rfl, show (- -1074 : Int).toNat = 1074 from rfl,
      tenPow_zero, Nat.mul_one, ← fivePow_mul_twoPow, Nat.mul_comm x.units,
      nearest_scaled (fivePow_pos 1074)]
    exact nearest_units hx
  rw [readsBack, hvalue, magnitudeBits_ofMagnitude x.magnitudeBits_lt, beq_self_eq_true]

theorem readsBack_of_onGrid {tie : Tie} {x : Binary64} {exponent : Int} {n : Numeral}
    (h : x.onGrid tie exponent = some n) : x.readsBack n = true := by
  unfold onGrid at h
  simp only [] at h
  split at h
  case h_1 hlower hupper =>
    split at h <;> cases h
    · exact hlower
    · exact hupper
  case h_2 hlower _ => cases h; exact hlower
  case h_3 _ hupper => cases h; exact hupper
  case h_4 => exact absurd h (by simp)

theorem readsBack_of_searchGrids {tie : Tie} {x : Binary64} {n : Numeral} (steps : Nat) :
    ∀ {exponent : Int}, x.searchGrids tie steps exponent = some n → x.readsBack n = true := by
  induction steps with
  | zero => exact fun h => absurd h (by simp [searchGrids])
  | succ steps ih =>
    intro exponent h
    rw [searchGrids] at h
    split at h
    case h_1 n' hgrid =>
      cases h
      exact readsBack_of_onGrid hgrid
    case h_2 => exact ih h

theorem toBinary64_shortest {tie : Tie} {x : Binary64} (hx : x.isFinite = true) :
    (x.shortest tie).toBinary64 = ofMagnitude x.magnitudeBits := by
  rw [shortest]
  cases hz : x.isZero with
  | true =>
    have hzero : x.magnitudeBits = 0 := by simpa [isZero] using hz
    rw [hzero]
    rfl
  | false =>
    refine Numeral.toBinary64_of_readsBack ?_
    simp only [Bool.false_eq_true, if_false]
    cases hs : x.searchGrids tie 20 x.coarsestExponent with
    -- Where the search finds nothing, all digits are written.
    | none => exact readsBack_exactNumeral hx hz
    | some n => exact readsBack_of_searchGrids 20 hs

end Binary64

/-! ### Numerals written out -/

namespace Numeral

/-- Digits in front of a point and behind it, neither of them none, with the value of a numeral. -/
structure IsWritten (n : Numeral) (whole fraction : List Char) : Prop where
  whole_ne : whole ≠ []
  whole_digits : ∀ c ∈ whole, c.isDigit = true
  fraction_ne : fraction ≠ []
  fraction_digits : ∀ c ∈ fraction, c.isDigit = true
  value : toBinary64 ⟨Nat.ofDigitChars 10 (whole ++ fraction) 0, -(fraction.length : Int)⟩ =
    n.toBinary64

theorem isDigit_digits (n : Numeral) : ∀ c ∈ n.digits, c.isDigit = true :=
  fun _ hc => Nat.isDigit_of_mem_toDigits (by decide) (by decide) hc

theorem isDigit_append {cs ds : List Char} (hcs : ∀ c ∈ cs, c.isDigit = true)
    (hds : ∀ c ∈ ds, c.isDigit = true) : ∀ c ∈ cs ++ ds, c.isDigit = true := by
  intro c hc
  rcases List.mem_append.1 hc with hc | hc
  · exact hcs c hc
  · exact hds c hc

theorem isDigit_replicate (k : Nat) : ∀ c ∈ List.replicate k '0', c.isDigit = true := by
  intro c hc
  rw [List.eq_of_mem_replicate hc]
  rfl

theorem digits_ne_nil (n : Numeral) : n.digits ≠ [] := Nat.toDigits_ne_nil

theorem ofDigitChars_digits (n : Numeral) : Nat.ofDigitChars 10 n.digits 0 = n.coefficient :=
  Nat.ofDigitChars_ten_toDigits

/-- A whole number, with a zero behind the point. -/
theorem isWritten_whole {n : Numeral} {e : Nat} (he : n.exponent = e) :
    n.IsWritten (n.digits ++ List.replicate e '0') ['0'] where
  whole_ne := List.append_ne_nil_of_left_ne_nil n.digits_ne_nil _
  whole_digits := isDigit_append n.isDigit_digits (isDigit_replicate e)
  fraction_ne := by simp
  fraction_digits := by simp
  value := by
    have hvalue : Nat.ofDigitChars 10 (n.digits ++ List.replicate e '0' ++ ['0']) 0 =
        n.coefficient * tenPow (e + 1) := by
      rw [List.append_assoc, show List.replicate e '0' ++ ['0'] = List.replicate (e + 1) '0' from
        List.replicate_succ'.symm, Nat.ofDigitChars_append, ofDigitChars_digits,
        Nat.ofDigitChars_replicate_zero, Nat.mul_comm]
      rfl
    rw [hvalue, show (-(['0'].length : Int)) = -1 from rfl, toBinary64_shifted, ← he]

/-- A point among the digits. -/
theorem isWritten_split {n : Numeral} {places : Nat} (he : n.exponent = -places)
    (hpos : 0 < places) (hlt : places < n.digits.length) :
    n.IsWritten (n.digits.take (n.digits.length - places))
      (n.digits.drop (n.digits.length - places)) where
  whole_ne := by
    rw [← List.length_pos_iff, List.length_take]
    omega
  whole_digits := fun c hc => n.isDigit_digits c (List.mem_of_mem_take hc)
  fraction_ne := by
    rw [← List.length_pos_iff, List.length_drop]
    omega
  fraction_digits := fun c hc => n.isDigit_digits c (List.mem_of_mem_drop hc)
  value := by
    have hlength : n.digits.length - (n.digits.length - places) = places := by omega
    rw [List.take_append_drop, ofDigitChars_digits, List.length_drop, hlength, ← he]

/-- A point in front of the digits, and zeros between them. -/
theorem isWritten_small {n : Numeral} {places : Nat} (he : n.exponent = -places)
    (hle : n.digits.length ≤ places) :
    n.IsWritten ['0'] (List.replicate (places - n.digits.length) '0' ++ n.digits) where
  whole_ne := by simp
  whole_digits := by simp
  fraction_ne := List.append_ne_nil_of_right_ne_nil _ n.digits_ne_nil
  fraction_digits := isDigit_append (isDigit_replicate _) n.isDigit_digits
  value := by
    have hvalue : Nat.ofDigitChars 10
        (['0'] ++ (List.replicate (places - n.digits.length) '0' ++ n.digits)) 0 =
          n.coefficient := by
      rw [← List.append_assoc, show (['0'] : List Char) = List.replicate 1 '0' from rfl,
        Nat.ofDigitChars_append, Nat.ofDigitChars_append, Nat.ofDigitChars_replicate_zero,
        Nat.ofDigitChars_replicate_zero, Nat.mul_zero, ofDigitChars_digits]
    have hlength : places - n.digits.length + n.digits.length = places := by omega
    rw [hvalue, List.length_append, List.length_replicate, hlength, ← he]

/-- The text of a numeral in a query: with a point in any case. -/
def pointed (n : Numeral) : List Char :=
  if n.positional.contains '.' then n.positional else n.positional ++ ['.', '0']

theorem contains_point {cs : List Char} (h : ∀ c ∈ cs, c.isDigit = true) :
    cs.contains '.' = false := by
  rw [← Bool.not_eq_true, List.contains_iff_mem]
  exact fun hmem => absurd (h '.' hmem) (by decide)

theorem exists_isWritten (n : Numeral) :
    ∃ whole fraction, n.pointed = whole ++ '.' :: fraction ∧ n.IsWritten whole fraction := by
  by_cases he : 0 ≤ n.exponent
  · -- Without decimal places the point is written behind the digits, with a zero.
    obtain ⟨e, he'⟩ := Int.eq_ofNat_of_zero_le he
    refine ⟨_, _, ?_, isWritten_whole he'⟩
    have hpositional : n.positional = n.digits ++ List.replicate e '0' := by
      have htoNat : n.exponent.toNat = e := by omega
      rw [positional]
      simp only [if_pos he, htoNat]
    rw [pointed, hpositional,
      contains_point (isDigit_append n.isDigit_digits (isDigit_replicate e)),
      if_neg (by decide)]
  · obtain ⟨places, he', hpos⟩ : ∃ places : Nat, n.exponent = -places ∧ 0 < places :=
      ⟨(-n.exponent).toNat, by omega, by omega⟩
    have hplaces : (-n.exponent).toNat = places := by omega
    by_cases hlt : places < n.digits.length
    · refine ⟨_, _, ?_, isWritten_split he' hpos hlt⟩
      have hpositional : n.positional = n.digits.take (n.digits.length - places) ++
          '.' :: n.digits.drop (n.digits.length - places) := by
        rw [positional]
        simp only [if_neg he, hplaces, if_pos hlt]
      rw [pointed, hpositional, if_pos (by simp)]
    · refine ⟨_, _, ?_, isWritten_small he' (Nat.not_lt.1 hlt)⟩
      have hpositional : n.positional =
          ['0'] ++ '.' :: (List.replicate (places - n.digits.length) '0' ++ n.digits) := by
        rw [positional]
        simp only [if_neg he, hplaces, if_neg hlt]
        rfl
      rw [pointed, hpositional, if_pos (by simp)]

end Numeral

end PathQuery
