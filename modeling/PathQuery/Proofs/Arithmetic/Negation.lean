/-
Numbers taken from zero.

An integer zero less an integer is the integer with its sign changed.  Less a float it goes through
decimals, so the result may be an integer, or another float:

* **`Number.NegatesExactly`** — which numbers only change their sign;
* **`Number.identical_fromZero_iff`** — and all others become another number;
* **`Number.fromZero_iterate`** — which change it as often as they are taken from zero.

Design notes: all of this holds of any lawful decimals.
-/
import PathQuery.Arithmetic
import PathQuery.Proofs.Number.Comparison
import PathQuery.Proofs.Number.Fits
import PathQuery.Proofs.Number.FromZero
import PathQuery.Proofs.Number.Rounding
import PathQuery.Value.Equality

namespace PathQuery

namespace Binary64

variable {x y : Binary64}

theorem eqv_neg_neg : (-x).eqv (-y) = true ↔ x.eqv y = true := by
  rw [eqv_iff, eqv_iff, isNaN_neg, isNaN_neg, rank_neg, rank_neg, Int.neg_inj]

/-- A number is equal to no other one than itself, unless it is a zero. -/
theorem eq_of_eqv (hx : x.isNegative = false) (hzero : x.isZero = false) (h : x.eqv y = true) :
    x = y := by
  obtain ⟨-, -, hrank⟩ := eqv_iff.1 h
  have hne : x.magnitudeBits ≠ 0 := beq_eq_false_iff_ne.1 hzero
  rw [rank, rank, hx, if_neg Bool.false_ne_true] at hrank
  split at hrank
  case isTrue => omega
  case isFalse hy =>
    rw [eq_ofMagnitude hx, eq_ofMagnitude (Bool.eq_false_iff.2 hy), Int.natCast_inj.1 hrank]

end Binary64

namespace Number

/-! ### Numbers without a sign -/

/-- Zero less a number. -/
def fromZero (D : DecimalSystem) (n : Number) : Number :=
  Operation.subtraction.apply D (.integer 0) n

/-- The number with its sign changed. -/
def opposite : Number → Number
  | .integer n => .integer (-n)
  | .float x => .float (-x)

/-- A number as it is written without a sign. -/
def IsUnsigned : Number → Prop
  | .integer n => 0 ≤ n.toInt
  | .float x => x.isNaN = false ∧ x.isNegative = false

/-- Zero less the number only changes its sign: an integer, or a float that decimals give back, or
leave alone because it has no decimal or one that is whole and does not fit 64 bits. -/
def NegatesExactly (D : DecimalSystem) : Number → Prop
  | .integer _ => True
  | .float x => ∀ d, D.ofBinary64 x = some d →
    if D.isWhole d then ¬ FitsInt64 (-D.whole d) else D.toBinary64 d = x

theorem opposite_opposite (n : Number) : n.opposite.opposite = n := by
  cases n with
  | integer n => exact congrArg integer (Int64.neg_neg (a := n))
  | float x => exact congrArg float x.neg_neg

theorem identical_self {n : Number} (h : n.isNaN = false) : n.identical n = true := by
  cases n with
  | integer n => exact beq_self_eq_true n
  | float x => exact Binary64.eqv_iff.2 ⟨h, h, rfl⟩

theorem isNaN_opposite_iterate (n : Number) (k : Nat) : (opposite^[k] n).isNaN = n.isNaN := by
  have hstep (n : Number) : n.opposite.isNaN = n.isNaN := by
    cases n with
    | integer n => rfl
    | float x => exact x.isNaN_neg
  induction k with
  | zero => rfl
  | succ k ih => rw [Function.iterate_succ_apply', hstep, ih]

theorem IsUnsigned.isNaN_eq_false {n : Number} (hn : n.IsUnsigned) : n.isNaN = false := by
  cases n with
  | integer n => rfl
  | float x => exact hn.1

/-! ### Integers -/

theorem toInt_neg {n : Int64} (h : FitsInt64 (-n.toInt)) : (-n).toInt = -n.toInt := by
  rw [← h.toInt_ofInt, Int64.ofInt_neg, Int64.ofInt_toInt]

theorem fromZero_integer (D : DecimalSystem) {n : Int64} (h : FitsInt64 (-n.toInt)) :
    fromZero D (.integer n) = .integer (-n) := by
  have hexact : (Operation.subtraction.exact (0 : Int64).toInt n.toInt).bind int64Of? =
      some (-n) := by
    show int64Of? (0 - n.toInt) = some (-n)
    rw [int64Of?_eq_some_iff, toInt_neg h, Int.zero_sub]
  rw [fromZero, Operation.apply, hexact]

/-! ### Floats -/

section

variable {D : DecimalSystem} {neg : D.Carrier → D.Carrier} {n : Number} {x : Binary64}
  {d : D.Carrier}

theorem fromZero_of_none (h : D.ofBinary64 x = none) :
    fromZero D (.float x) = .float (.zero - x) := by
  rw [fromZero, Operation.apply, h, ← Binary64.ofInt_zero]
  rfl

theorem fromZero_of_decimal (hD : D.Lawful neg) (h : D.ofBinary64 x = some d) :
    fromZero D (.float x) =
      if D.isWhole d then
        match int64Of? (-D.whole d) with
        | some n => .integer n
        | none => .float (.zero - x)
      else .float (D.toBinary64 (neg d)) := by
  have hdecimal : Operation.subtraction.decimal D (D.ofInt (0 : Int64).toInt) d = some (neg d) :=
    hD.zero_sub h
  rw [fromZero, Operation.apply, h, Operation.mixed, hdecimal]
  simp only [hD.isWhole_neg, hD.whole_neg]
  rw [← Binary64.ofInt_zero]
  rfl

/-- The decimal of zero is whole and fits, so zero becomes an integer. -/
theorem NegatesExactly.isZero_eq_false (hD : D.Lawful neg) (h : NegatesExactly D (.float x)) :
    x.isZero = false := by
  refine Bool.eq_false_iff.2 fun hzero => ?_
  obtain ⟨d, hd, hwhole, hvalue⟩ := hD.ofBinary64_of_isZero hzero
  have hkept := h d hd
  rw [if_pos hwhole, hvalue] at hkept
  exact hkept (by decide)

/-- A float that decimals give back changes its sign when it is taken from zero, and changes it
back when that is. -/
theorem fromZero_float (hD : D.Lawful neg) (hx : (Number.float x).IsUnsigned)
    (h : NegatesExactly D (.float x)) :
    fromZero D (.float x) = .float (-x) ∧ fromZero D (.float (-x)) = .float x := by
  obtain ⟨hnan, hnegative⟩ := hx
  have hzero := h.isZero_eq_false hD
  have hminus : Binary64.zero - x = -x := Binary64.zero_sub hnan hzero
  have hplus : Binary64.zero - -x = x := by
    have hneg := Binary64.zero_sub (x := -x) ((Binary64.isNaN_neg x).trans hnan)
      (by rwa [Binary64.isZero, Binary64.magnitudeBits_neg])
    rwa [Binary64.neg_neg] at hneg
  have hdecimals := hD.ofBinary64_neg x
  cases hd : D.ofBinary64 x with
  | none =>
    rw [hd] at hdecimals
    rw [fromZero_of_none hd, fromZero_of_none hdecimals, hminus, hplus]
    exact ⟨rfl, rfl⟩
  | some d =>
    rw [hd] at hdecimals
    have hkept := h d hd
    rw [fromZero_of_decimal hD hd, fromZero_of_decimal hD hdecimals, hD.isWhole_neg, hD.whole_neg,
      hD.neg_neg]
    cases hwhole : D.isWhole d with
    | true =>
      rw [hwhole, if_pos rfl] at hkept
      have hback : ¬ FitsInt64 (- -D.whole d) := by
        have hsign := hD.whole_nonneg hnegative hd
        rw [FitsInt64] at hkept ⊢
        omega
      simp only [if_true, int64Of?_eq_none_iff.2 hkept, int64Of?_eq_none_iff.2 hback, hminus, hplus,
        and_self]
    | false =>
      rw [hwhole, if_neg Bool.false_ne_true] at hkept
      simp only [Bool.false_eq_true, if_false, hD.toBinary64_neg d hwhole, hkept, and_self]

/-! ### Signs -/

/-- A number that negates exactly goes back and forth between itself and its opposite. -/
theorem fromZero_of_negatesExactly (hD : D.Lawful neg) (hn : n.IsUnsigned)
    (h : n.NegatesExactly D) :
    n.fromZero D = n.opposite ∧ n.opposite.fromZero D = n := by
  cases n with
  | float x => exact fromZero_float hD hn h
  | integer n =>
    have hnonneg : 0 ≤ n.toInt := hn
    have hlt := n.toInt_lt
    have hneg : FitsInt64 (-n.toInt) := ⟨by omega, by omega⟩
    have hback : FitsInt64 (-(-n).toInt) := by
      rw [toInt_neg hneg, Int.neg_neg]
      exact fitsInt64_toInt n
    refine ⟨fromZero_integer D hneg, (fromZero_integer D hback).trans ?_⟩
    rw [Int64.neg_neg]

/-- However often such a number is taken from zero, its sign changes as often. -/
theorem fromZero_iterate (hD : D.Lawful neg) (hn : n.IsUnsigned) (h : n.NegatesExactly D)
    (k : Nat) : (fromZero D)^[k] n = opposite^[k] n := by
  obtain ⟨hthere, hback⟩ := fromZero_of_negatesExactly hD hn h
  -- One of the two numbers is what the other one becomes, at every step.
  have hboth : (fromZero D)^[k] n = opposite^[k] n ∧
      (fromZero D)^[k] n.opposite = opposite^[k] n.opposite := by
    induction k with
    | zero => exact ⟨rfl, rfl⟩
    | succ k ih =>
      rw [Function.iterate_succ_apply, Function.iterate_succ_apply, Function.iterate_succ_apply,
        Function.iterate_succ_apply, hthere, hback, opposite_opposite]
      exact ⟨ih.2, ih.1⟩
  exact hboth.1

/-- All other numbers become another one, or one of another kind. -/
theorem identical_fromZero_iff (hD : D.Lawful neg) (hn : n.IsUnsigned) :
    n.opposite.identical (n.fromZero D) = true ↔ n.NegatesExactly D := by
  constructor
  · intro hidentical
    cases n with
    | integer n => exact trivial
    | float x =>
      intro d hd
      rw [fromZero_of_decimal hD hd] at hidentical
      cases hwhole : D.isWhole d with
      | true =>
        rw [hwhole, if_pos rfl] at hidentical
        rw [if_pos rfl, ← int64Of?_eq_none_iff]
        cases hinteger : int64Of? (-D.whole d) with
        | none => rfl
        | some k =>
          rw [hinteger] at hidentical
          exact nomatch hidentical
      | false =>
        rw [hwhole, if_neg Bool.false_ne_true, hD.toBinary64_neg d hwhole] at hidentical
        have heqv : x.eqv (D.toBinary64 d) = true := Binary64.eqv_neg_neg.1 hidentical
        have hzero : x.isZero = false := by
          refine Bool.eq_false_iff.2 fun hzero => ?_
          obtain ⟨d', hd', hwhole', -⟩ := hD.ofBinary64_of_isZero hzero
          obtain rfl := Option.some_inj.1 (hd.symm.trans hd')
          exact absurd hwhole' (Bool.eq_false_iff.1 hwhole)
        rw [if_neg Bool.false_ne_true]
        exact (Binary64.eq_of_eqv hn.2 hzero heqv).symm
  · intro hexact
    rw [(fromZero_of_negatesExactly hD hn hexact).1]
    exact identical_self ((isNaN_opposite_iterate n 1).trans hn.isNaN_eq_false)

end

end Number

end PathQuery
