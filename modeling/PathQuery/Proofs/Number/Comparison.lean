/-
Comparison of numbers.

* **`Number.compare?_swap`** — the order the other way round is the order turned round;
* **`Number.compare?_eq_none_iff`** — there is none exactly if a NaN is involved;
* **`Number.eqv_comm`, `Number.eqv_self`** — equality is symmetric, and a number that is no NaN
  equals itself;
* **`isNaN_of_readNumber?`** — no text is read as a NaN.
-/
import PathQuery.Number
import PathQuery.Proofs.Number.Integers

namespace PathQuery

namespace Binary64

theorem isNaN_eq_false {x : Binary64} (h : x.isFinite = true) : x.isNaN = false :=
  decide_eq_false (Nat.lt_asymm (of_decide_eq_true h))

theorem compare?_eq_some {x y : Binary64} (hx : x.isNaN = false) (hy : y.isNaN = false) :
    x.compare? y = some (compare x.rank y.rank) := by
  rw [compare?, hx, hy]
  rfl

theorem compare?_eq_none_iff {x y : Binary64} :
    x.compare? y = none ↔ x.isNaN = true ∨ y.isNaN = true := by
  rw [compare?, ← Bool.or_eq_true]
  split
  case isTrue h => simp [h]
  case isFalse h => simp [h]

theorem compare?_swap (x y : Binary64) : (x.compare? y).map Ordering.swap = y.compare? x := by
  cases hx : x.isNaN with
  | true =>
    rw [compare?_eq_none_iff.2 (.inl hx), compare?_eq_none_iff.2 (.inr hx)]
    rfl
  | false =>
    cases hy : y.isNaN with
    | true =>
      rw [compare?_eq_none_iff.2 (.inr hy), compare?_eq_none_iff.2 (.inl hy)]
      rfl
    | false =>
      rw [compare?_eq_some hx hy, compare?_eq_some hy hx, Option.map_some, Int.compare_swap]

theorem eqv_iff {x y : Binary64} :
    x.eqv y = true ↔ x.isNaN = false ∧ y.isNaN = false ∧ x.rank = y.rank := by
  cases hx : x.isNaN with
  | true => simp [eqv, compare?_eq_none_iff.2 (.inl hx)]
  | false =>
    cases hy : y.isNaN with
    | true => simp [eqv, compare?_eq_none_iff.2 (.inr hy)]
    | false => simp [eqv, compare?_eq_some hx hy]

theorem eqv_trans {x y z : Binary64} (h : x.eqv y = true) (h' : y.eqv z = true) :
    x.eqv z = true := by
  obtain ⟨hx, -, hxy⟩ := eqv_iff.1 h
  obtain ⟨-, hz, hyz⟩ := eqv_iff.1 h'
  exact eqv_iff.2 ⟨hx, hz, hxy.trans hyz⟩

end Binary64

namespace Number

/-- Whether a number is the float that is none. -/
def isNaN : Number → Bool
  | .integer _ => false
  | .float x => x.isNaN

/-- Neither infinite nor not-a-number. -/
def isFinite : Number → Bool
  | .integer _ => true
  | .float x => x.isFinite

@[simp] theorem isNaN_toBinary64 (a : Number) : a.toBinary64.isNaN = a.isNaN := by
  cases a with
  | integer n =>
    have hlow := n.le_toInt
    have hhigh := n.toInt_lt
    exact Binary64.isNaN_eq_false (Binary64.isFinite_ofInt (by omega))
  | float x => rfl

theorem compare?_swap (a b : Number) : (a.compare? b).map Ordering.swap = b.compare? a := by
  cases a with
  | integer m =>
    cases b with
    | integer n => exact congrArg some (Int.compare_swap m.toInt n.toInt)
    | float y => exact Binary64.compare?_swap _ y
  | float x => cases b <;> exact Binary64.compare?_swap x _

theorem compare?_eq_none_iff {a b : Number} :
    a.compare? b = none ↔ a.isNaN = true ∨ b.isNaN = true := by
  rw [← isNaN_toBinary64 a, ← isNaN_toBinary64 b, ← Binary64.compare?_eq_none_iff]
  cases a with
  | integer m =>
    cases b with
    | integer n => simp [compare?, Binary64.compare?_eq_none_iff, isNaN]
    | float y => rfl
  | float x => cases b <;> rfl

theorem compare?_self {a : Number} (h : a.isNaN = false) : a.compare? a = some .eq := by
  cases a with
  | integer n => exact congrArg some Std.compare_self
  | float x =>
    have hx : x.isNaN = false := h
    exact (Binary64.compare?_eq_some hx hx).trans (congrArg some Std.compare_self)

theorem eqv_comm (a b : Number) : a.eqv b = b.eqv a := by
  rw [eqv, eqv, ← compare?_swap a b]
  cases a.compare? b with
  | none => rfl
  | some o => cases o <;> rfl

theorem eqv_self (a : Number) : a.eqv a = !a.isNaN := by
  cases h : a.isNaN with
  | true => simp [eqv, compare?_eq_none_iff.2 (.inl h)]
  | false => simp [eqv, compare?_self h]

end Number

/-- A text is read as an integer or as a finite number. -/
theorem isNaN_of_readNumber? {text : String} {n : Number} (h : readNumber? text = some n) :
    n.isNaN = false := by
  rw [readNumber?] at h
  split at h
  case isTrue => exact nomatch h
  case isFalse =>
    split at h
    case h_1 => exact Option.some_inj.1 h ▸ rfl
    case h_2 =>
      obtain ⟨x, -, hx⟩ := Option.bind_eq_some_iff.1 h
      split at hx
      case isTrue hfinite => exact Option.some_inj.1 hx ▸ Binary64.isNaN_eq_false hfinite
      case isFalse => exact nomatch hx

end PathQuery
