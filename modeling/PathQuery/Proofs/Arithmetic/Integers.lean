/-
Arithmetic on integers.

Results are the exact ones, and floats take over where the exact one does not fit 64 bits:

* **`Operation.isExactOr_apply`** — the four operations, where there is an exact result;
* **`exists_remainder`** — the remainder always fits;
* **`arithmetic_of_integers`** — the five operators on all operands that stand for integers.
-/
import Mathlib.Tactic.ByContra
import PathQuery.Arithmetic
import PathQuery.Proofs.Number.Fits

namespace PathQuery

/-- A result is the integer `n`. -/
def IsInteger (n : Int) (result : Except EvalError Value) : Prop :=
  ∃ r : Int64, result = .ok (.number (.integer r)) ∧ r.toInt = n

/-- A result is the integer `n` if that fits 64 bits, and the float `x` if it does not. -/
def IsExactOr (n : Int) (x : Binary64) (result : Except EvalError Value) : Prop :=
  (FitsInt64 n ∧ IsInteger n result) ∨ (¬ FitsInt64 n ∧ result = .ok (.number (.float x)))

namespace IsExactOr

variable {n : Int} {x : Binary64} {result : Except EvalError Value}

theorem isInteger (h : IsExactOr n x result) (hn : FitsInt64 n) : IsInteger n result :=
  h.elim And.right fun hfloat => absurd hn hfloat.1

theorem eq_float (h : IsExactOr n x result) (hn : ¬ FitsInt64 n) :
    result = .ok (.number (.float x)) :=
  h.elim (fun hinteger => absurd hinteger.1 hn) And.right

end IsExactOr

variable {a b : Int64}

/-! ### The four operations -/

namespace Operation

variable {o : Operation} {D : DecimalSystem}

theorem isExactOr_apply {n : Int} (h : o.exact a.toInt b.toInt = some n) :
    IsExactOr n (o.float (.ofInt a.toInt) (.ofInt b.toInt))
      (.ok (.number (o.apply D (.integer a) (.integer b)))) := by
  rw [apply, h, Option.bind_some]
  split
  case h_1 r hr =>
    obtain rfl := int64Of?_eq_some_iff.1 hr
    exact .inl ⟨fitsInt64_toInt r, r, rfl, rfl⟩
  case h_2 hnone => exact .inr ⟨int64Of?_eq_none_iff.1 hnone, rfl⟩

theorem apply_of_inexact (h : o.exact a.toInt b.toInt = none) :
    o.apply D (.integer a) (.integer b) = .float (o.float (.ofInt a.toInt) (.ofInt b.toInt)) := by
  rw [apply, h]
  rfl

theorem exact_division_mul {q n : Int} (h : n ≠ 0) : division.exact (q * n) n = some q := by
  rw [division]
  simp only [Int.mul_tmod_left, if_true, Int.mul_tdiv_cancel q h]

theorem exact_division_of_not_dvd {m n : Int} (h : ¬ n ∣ m) : division.exact m n = none := by
  rw [Int.dvd_iff_tmod_eq_zero] at h
  exact if_neg h

end Operation

/-! ### The remainder -/

/-- What is left of `m` after a multiple of `n`: less than `n`, and on the same side of zero as
`m`. -/
structure IsRemainder (m n r : Int) : Prop where
  exists_quotient : ∃ q, m = q * n + r
  natAbs_lt : r.natAbs < n.natAbs
  sign : r = 0 ∨ r.sign = m.sign

theorem isRemainder_tmod {m n : Int} (h : n ≠ 0) : IsRemainder m n (m.tmod n) where
  exists_quotient := ⟨m.tdiv n, (Int.tdiv_mul_add_tmod m n).symm⟩
  natAbs_lt := by
    rw [Int.natAbs_tmod]
    exact Nat.mod_lt _ (Int.natAbs_pos.2 h)
  sign := by
    by_cases hdvd : n ∣ m
    · exact .inl (Int.dvd_iff_tmod_eq_zero.1 hdvd)
    · right
      rw [Int.sign_tmod, if_neg hdvd]

theorem fitsInt64_tmod {m n : Int} (hm : FitsInt64 m) : FitsInt64 (m.tmod n) := by
  obtain ⟨hlow, hhigh⟩ := hm
  have hle : (m.tmod n).natAbs ≤ m.natAbs := by
    rw [Int.natAbs_tmod]
    exact Nat.mod_le _ _
  rw [FitsInt64]
  by_cases hsign : 0 ≤ m
  · have hrest : 0 ≤ m.tmod n := Int.tmod_nonneg n hsign
    omega
  · have hrest : 0 ≤ (-m).tmod n := Int.tmod_nonneg n (by omega)
    rw [Int.neg_tmod] at hrest
    omega

theorem Number.fitsInt64_truncate (a : Number) : FitsInt64 a.truncate := by
  cases a with
  | integer n => exact fitsInt64_toInt n
  | float x =>
    rw [truncate]
    split
    case isTrue => decide
    case isFalse =>
      have hpow : (twoPow 63 : Int) = 2 ^ 63 := rfl
      rw [clamp, hpow, FitsInt64]
      omega

/-- The remainder is that of the truncated operands, which fits. -/
theorem exists_remainder {a b : Number} (h : b.truncate ≠ 0) :
    ∃ r, remainder a b = some (.integer r) ∧ r.toInt = a.truncate.tmod b.truncate :=
  ⟨_, if_neg h, (fitsInt64_tmod a.fitsInt64_truncate).toInt_ofInt⟩

/-! ### The operators -/

section Operators

variable {op : ArithmeticOp} {left right : Value}

theorem operand_of_toNumber? {v : Value} {n : Number} (h : v.toNumber? = some n) :
    operand op v = .ok n := by
  rw [operand, h]

/-- Operands count as the numbers that they stand for. -/
theorem arithmetic_eq_of_toNumber? {m n : Number} (hleft : left.toNumber? = some m)
    (hright : right.toNumber? = some n) :
    arithmetic op left right = arithmetic op (.number m) (.number n) := by
  have hm : (Value.number m).toNumber? = some m := rfl
  have hn : (Value.number n).toNumber? = some n := rfl
  rw [arithmetic, arithmetic, operand_of_toNumber? hleft, operand_of_toNumber? hright,
    operand_of_toNumber? hm, operand_of_toNumber? hn]

theorem isNonzero_integer : (Number.integer b).isNonzero = true ↔ b.toInt ≠ 0 := by
  rw [Number.isNonzero, bne_iff_ne, Ne, ← Int64.toInt_inj, Int64.toInt_zero]

theorem arithmetic_divide_of_ne_zero (h : b.toInt ≠ 0) :
    arithmetic .divide (.number (.integer a)) (.number (.integer b)) =
      .ok (.number (Operation.division.apply Decimal.system (.integer a) (.integer b))) :=
  if_pos (isNonzero_integer.2 h)

theorem arithmetic_divide_of_eq_zero (h : b.toInt = 0) :
    arithmetic .divide (.number (.integer a)) (.number (.integer b)) = .error .divisionByZero :=
  if_neg fun hne => isNonzero_integer.1 hne h

theorem arithmetic_modulo_eq (m n : Number) :
    arithmetic .modulo (.number m) (.number n) =
      match remainder m n with
      | some r => .ok (.number r)
      | none => .error .divisionByZero := rfl

theorem isInteger_arithmetic_modulo (h : b.toInt ≠ 0) :
    IsInteger (a.toInt.tmod b.toInt)
      (arithmetic .modulo (.number (.integer a)) (.number (.integer b))) := by
  have hb : (Number.integer b).truncate ≠ 0 := h
  obtain ⟨r, hr, htmod⟩ := exists_remainder (a := .integer a) hb
  rw [arithmetic_modulo_eq, hr]
  exact ⟨r, rfl, htmod⟩

theorem arithmetic_modulo_of_eq_zero (h : b.toInt = 0) :
    arithmetic .modulo (.number (.integer a)) (.number (.integer b)) = .error .divisionByZero := by
  have hnone : remainder (.integer a) (.integer b) = none := if_pos h
  rw [arithmetic_modulo_eq, hnone]

/-- All five operators on operands that stand for integers: `+`, `-` and `*` give the exact result
where it fits 64 bits, and otherwise that of the operands as floats; `/` does so where nothing
remains, and gives that of the floats where something does; `%` gives the remainder of a division
towards zero.  Only a zero divisor is an error. -/
theorem arithmetic_of_integers (hleft : left.toNumber? = some (.integer a))
    (hright : right.toNumber? = some (.integer b)) :
    IsExactOr (a.toInt + b.toInt) (.ofInt a.toInt + .ofInt b.toInt) (arithmetic .add left right) ∧
    IsExactOr (a.toInt - b.toInt) (.ofInt a.toInt - .ofInt b.toInt)
      (arithmetic .subtract left right) ∧
    IsExactOr (a.toInt * b.toInt) (.ofInt a.toInt * .ofInt b.toInt)
      (arithmetic .multiply left right) ∧
    (arithmetic .divide left right = .error .divisionByZero ↔ b.toInt = 0) ∧
    (arithmetic .modulo left right = .error .divisionByZero ↔ b.toInt = 0) ∧
    (b.toInt ≠ 0 →
      (∀ q, a.toInt = q * b.toInt →
        IsExactOr q (.ofInt a.toInt / .ofInt b.toInt) (arithmetic .divide left right)) ∧
      (¬ b.toInt ∣ a.toInt → arithmetic .divide left right =
        .ok (.number (.float (.ofInt a.toInt / .ofInt b.toInt)))) ∧
      ∃ r, IsInteger r (arithmetic .modulo left right) ∧ IsRemainder a.toInt b.toInt r) := by
  have heq (op : ArithmeticOp) : arithmetic op left right =
      arithmetic op (.number (.integer a)) (.number (.integer b)) :=
    arithmetic_eq_of_toNumber? hleft hright
  rw [heq, heq, heq, heq, heq]
  refine ⟨Operation.isExactOr_apply rfl, Operation.isExactOr_apply rfl,
    Operation.isExactOr_apply rfl, ⟨?divide, arithmetic_divide_of_eq_zero⟩,
    ⟨?modulo, arithmetic_modulo_of_eq_zero⟩,
    fun hb => ⟨fun q hq => ?exact, fun hdvd => ?inexact, ?remainder⟩⟩
  case divide =>
    intro herror
    by_contra hb
    rw [arithmetic_divide_of_ne_zero hb] at herror
    exact nomatch herror
  case modulo =>
    intro herror
    by_contra hb
    obtain ⟨r, hr, -⟩ := isInteger_arithmetic_modulo (a := a) hb
    exact nomatch hr.symm.trans herror
  case exact =>
    rw [arithmetic_divide_of_ne_zero hb]
    refine Operation.isExactOr_apply ?_
    rw [hq]
    exact Operation.exact_division_mul hb
  case inexact =>
    rw [arithmetic_divide_of_ne_zero hb,
      Operation.apply_of_inexact (Operation.exact_division_of_not_dvd hdvd)]
    rfl
  case remainder =>
    exact ⟨_, isInteger_arithmetic_modulo hb, isRemainder_tmod hb⟩

/-- The least integer and the text of `-1`: the difference fits, the sum, the product and the
quotient do not, and nothing remains.  Null counts as a zero divisor. -/
theorem arithmetic_of_integers_least :
    let least : Value := .number (.integer Int64.minValue)
    let minusOne : Value := .string " -1"
    (∃ x, arithmetic .add least minusOne = .ok (.number (.float x))) ∧
      IsInteger (-9223372036854775807) (arithmetic .subtract least minusOne) ∧
      (∃ x, arithmetic .multiply least minusOne = .ok (.number (.float x))) ∧
      (∃ x, arithmetic .divide least minusOne = .ok (.number (.float x))) ∧
      (∃ r, IsInteger r (arithmetic .modulo least minusOne) ∧
        IsRemainder (-9223372036854775808) (-1) r) ∧
      arithmetic .divide (.boolean true) .null = .error .divisionByZero := by
  intro least minusOne
  have hleft : least.toNumber? = some (.integer Int64.minValue) := rfl
  have hright : minusOne.toNumber? = some (.integer (-1)) := by decide +kernel
  have htrue : (Value.boolean true).toNumber? = some (.integer 1) := rfl
  have hnull : Value.null.toNumber? = some (.integer 0) := rfl
  obtain ⟨hadd, hsubtract, hmultiply, -, -, hdivisor⟩ := arithmetic_of_integers hleft hright
  obtain ⟨hdivide, -, hmodulo⟩ := hdivisor (by decide)
  obtain ⟨-, -, -, hzero, -⟩ := arithmetic_of_integers htrue hnull
  exact ⟨⟨_, hadd.eq_float (by decide)⟩, hsubtract.isInteger (by decide),
    ⟨_, hmultiply.eq_float (by decide)⟩,
    ⟨_, (hdivide 9223372036854775808 (by decide)).eq_float (by decide)⟩, hmodulo,
    hzero.2 (by decide)⟩

end Operators

end PathQuery
