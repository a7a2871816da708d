/-
The order of values and loose equality tell one story.

The order operators and `==` choose on their own between comparing numbers and comparing texts.
`Value.Ranked` is the choice of the order operators; `==` makes the same one wherever there is an
order:

* **`order_of_ranked`, `order_of_not_ranked`** — an order operator fails exactly where values do not
  rank;
* **`Value.Ranked.swap`** — the other way round they rank the other way round;
* **`Value.Ranked.looselyEqual_eq`** — values are loosely equal if they rank equal;
* **`comparisons_agree`** — so of `<`, `==` and `>` exactly one holds, unless there is a NaN.
-/
import Mathlib.Data.String.Basic
import PathQuery.Comparison
import PathQuery.Proofs.Value.Equality

namespace PathQuery

/-! ### Ranks -/

/-- How two values rank: numbers and texts of numbers by value, without an order if there is a NaN,
and two texts that are not both numbers by code point. -/
inductive Value.Ranked : Value → Value → Option Ordering → Prop where
  | numbers {l r : Value} {a b : Number} (hl : l.numeric? = some a) (hr : r.numeric? = some b) :
    Ranked l r (a.compare? b)
  | texts {s t : String} (h : readNumber? s = none ∨ readNumber? t = none) :
    Ranked (.string s) (.string t) (some (compare s t))

variable {l r : Value} {o : Option Ordering} {op : ComparisonOp}

theorem order_of_ranked (h : l.Ranked r o) : order op l r = .ok o := by
  unfold order
  cases h with
  | numbers hl hr => rw [hl, hr]
  | texts h =>
    split
    case h_1 hs ht =>
      have hnone := h.imp hs.symm.trans ht.symm.trans
      simp at hnone
    case h_2 => rfl

theorem order_of_not_ranked (h : ∀ o, ¬ l.Ranked r o) :
    order op l r = .error (.typeFault (.notComparable l.kind op r.kind)) := by
  unfold order
  split
  case h_1 hl hr => exact absurd (.numbers hl hr) (h _)
  case h_2 hnumbers =>
    split
    case h_1 s t =>
      refine absurd (.texts ?_) (h _)
      by_contra hboth
      obtain ⟨hs, ht⟩ := not_or.1 hboth
      obtain ⟨a, ha⟩ := Option.ne_none_iff_exists'.1 hs
      obtain ⟨b, hb⟩ := Option.ne_none_iff_exists'.1 ht
      exact hnumbers a b ha hb
    case h_2 => rfl

namespace Value

theorem isNaN_of_numeric? {v : Value} {n : Number} (h : v.numeric? = some n) :
    n.isNaN = v.isNaN := by
  cases v with
  | number m => exact Option.some_inj.1 h ▸ rfl
  | string s => exact isNaN_of_readNumber? h
  | _ => exact nomatch h

namespace Ranked

theorem swap (h : l.Ranked r o) : r.Ranked l (o.map Ordering.swap) := by
  cases h with
  | @numbers l r a b hl hr =>
    rw [Number.compare?_swap]
    exact .numbers hr hl
  | @texts s t h =>
    have hswap : (compare s t).swap = compare t s := Std.OrientedOrd.eq_swap.symm
    rw [Option.map_some, hswap]
    exact .texts h.symm

theorem isTruth_left (h : l.Ranked r o) : l.isTruth = false := by
  cases h with
  | numbers hl hr => cases l <;> first | rfl | contradiction
  | texts h => rfl

/-- Where there is a rank, loose equality goes by number too, or compares the two texts. -/
theorem looselyEqual_eq (h : l.Ranked r o) : l.looselyEqual r = (o == some .eq) := by
  have hl := h.isTruth_left
  have hr : r.isTruth = false := h.swap.isTruth_left
  have hflat : ¬ BothNested l r := by
    intro hnested
    cases hnested <;> cases h <;> contradiction
  rw [looselyEqual_of_flat hl hr hflat]
  cases h with
  | numbers hl hr => exact equalByNumber_of_some hl hr
  | @texts s t h =>
    rw [equalByNumber_of_none (a := .string s) (b := .string t) h, identical, Bool.eq_iff_iff,
      beq_iff_eq, beq_iff_eq, Option.some_inj, compare_eq_iff_eq]

/-- Only a NaN takes the order from a rank. -/
theorem eq_none_iff (h : l.Ranked r o) : o = none ↔ (l.isNaN || r.isNaN) = true := by
  cases h with
  | numbers hl hr =>
    rw [Number.compare?_eq_none_iff, isNaN_of_numeric? hl, isNaN_of_numeric? hr, Bool.or_eq_true]
  | texts h => simp [isNaN]

end Ranked

end Value

/-! ### The operators -/

namespace ComparisonOp

/-- The operators that need an order. -/
def orders : List ComparisonOp := [.less, .lessEqual, .greater, .greaterEqual]

/-- A comparison gives true. -/
def Relates (op : ComparisonOp) (l r : Value) : Prop := comparison op l r = .ok (.boolean true)

/-- A comparison is a type error. -/
def IsFault (op : ComparisonOp) (l r : Value) : Prop :=
  ∃ fault, comparison op l r = .error (.typeFault fault)

theorem comparison_eq_order (hop : op ∈ orders) :
    comparison op l r = (order op l r).map fun o => .boolean (o.any op.holds) := by
  rw [comparison, compares.eq_def]
  simp only [orders, List.mem_cons, List.not_mem_nil, or_false] at hop
  rcases hop with rfl | rfl | rfl | rfl <;> exact (LawfulFunctor.comp_map _ _ (order _ l r)).symm

theorem comparison_of_ranked (h : l.Ranked r o) (hop : op ∈ orders) :
    comparison op l r = .ok (.boolean (o.any op.holds)) := by
  rw [comparison_eq_order hop, order_of_ranked h]
  rfl

theorem isFault_iff (hop : op ∈ orders) : op.IsFault l r ↔ ∀ o, ¬ l.Ranked r o := by
  constructor
  · rintro ⟨fault, hfault⟩ o ho
    rw [comparison_of_ranked ho hop] at hfault
    exact nomatch hfault
  · intro h
    refine ⟨.notComparable l.kind op r.kind, ?_⟩
    rw [comparison_eq_order hop, order_of_not_ranked h]
    rfl

theorem relates_iff (h : l.Ranked r o) (hop : op ∈ orders) :
    op.Relates l r ↔ o.any op.holds = true := by
  rw [Relates, comparison_of_ranked h hop]
  simp

theorem relates_equal_iff (h : l.Ranked r o) : equal.Relates l r ↔ o = some .eq := by
  rw [Relates, comparison, compares, h.looselyEqual_eq]
  simp [Except.map]

/-- The comparison that an order satisfies, of the three that exclude each other. -/
def ofOrdering : Ordering → ComparisonOp
  | .lt => less
  | .eq => equal
  | .gt => greater

theorem relates_iff_eq_ofOrdering {c : Ordering} (h : l.Ranked r (some c))
    (hop : op ∈ [less, equal, greater]) : op.Relates l r ↔ op = ofOrdering c := by
  simp only [List.mem_cons, List.not_mem_nil, or_false] at hop
  rcases hop with rfl | rfl | rfl
  · rw [relates_iff h (by decide)]
    cases c <;> decide
  · rw [relates_equal_iff h]
    cases c <;> decide
  · rw [relates_iff h (by decide)]
    cases c <;> decide

end ComparisonOp

open ComparisonOp

/-- The four order operators are type errors together, either way round.  Where they are not, all
comparisons have an answer.  With a NaN only `!=` holds of the six; without one exactly one of `<`,
`==` and `>` holds, `<=` and `>=` are what their names say, and `<` is `>` the other way round. -/
theorem comparisons_agree (l r : Value) :
    (∀ op ∈ orders, (op.IsFault l r ↔ less.IsFault l r) ∧ (op.IsFault r l ↔ less.IsFault l r)) ∧
      (¬ less.IsFault l r →
        (∀ op, ∃ b, comparison op l r = .ok (.boolean b)) ∧
        ((l.isNaN || r.isNaN) = true →
          (∀ op ∈ equal :: orders, comparison op l r = .ok (.boolean false)) ∧
          notEqual.Relates l r) ∧
        ((l.isNaN || r.isNaN) = false →
          (∃! op, op ∈ [less, equal, greater] ∧ op.Relates l r) ∧
          (lessEqual.Relates l r ↔ less.Relates l r ∨ equal.Relates l r) ∧
          (greaterEqual.Relates l r ↔ greater.Relates l r ∨ equal.Relates l r) ∧
          (less.Relates l r ↔ greater.Relates r l))) := by
  have hless : less ∈ orders := by decide
  constructor
  · -- The ranks of two values decide, and they are there both ways or neither.
    intro op hop
    rw [isFault_iff hop, isFault_iff hop, isFault_iff hless]
    exact ⟨Iff.rfl, fun h o ho => h _ ho.swap, fun h o ho => h _ ho.swap⟩
  · intro hfault
    rw [isFault_iff hless, not_forall_not] at hfault
    obtain ⟨o, h⟩ := hfault
    refine ⟨?answered, ?nan, ?ordered⟩
    case answered =>
      intro op
      by_cases hop : op ∈ orders
      · exact ⟨_, comparison_of_ranked h hop⟩
      · cases op <;> first | exact ⟨_, rfl⟩ | exact absurd (by decide) hop
    case nan =>
      intro hnan
      obtain rfl := h.eq_none_iff.2 hnan
      have hequal : l.looselyEqual r = false := h.looselyEqual_eq
      refine ⟨fun op hop => ?_, ?_⟩
      · obtain rfl | hop := List.mem_cons.1 hop
        · rw [comparison, compares, hequal]
          rfl
        · exact comparison_of_ranked h hop
      · rw [Relates, comparison, compares, hequal]
        rfl
    case ordered =>
      intro hnan
      cases o with
      | none =>
        rw [h.eq_none_iff.1 rfl] at hnan
        exact nomatch hnan
      | some c =>
        refine ⟨?_, ?_, ?_, ?_⟩
        · have hmem : ofOrdering c ∈ [less, equal, greater] := by cases c <;> decide
          refine ⟨ofOrdering c, ⟨hmem, (relates_iff_eq_ofOrdering h hmem).2 rfl⟩, ?_⟩
          exact fun op hop => (relates_iff_eq_ofOrdering h hop.1).1 hop.2
        · rw [relates_iff h (by decide), relates_iff h (by decide), relates_equal_iff h]
          cases c <;> decide
        · rw [relates_iff h (by decide), relates_iff h (by decide), relates_equal_iff h]
          cases c <;> decide
        · rw [relates_iff h (by decide), relates_iff h.swap (by decide)]
          cases c <;> decide

/-- A text of a number is less than a number, and a NaN is not equal to it. -/
theorem comparisons_agree_of_ten :
    let ten : Value := .number (.integer 10)
    let nan : Value := .number (.float ⟨0x7ff8000000000000⟩)
    (¬ less.IsFault (.string " 9") ten ∧ ((Value.string " 9").isNaN || ten.isNaN) = false ∧
      (less.Relates (.string " 9") ten ↔ greater.Relates ten (.string " 9")) ∧
      ∃! op, op ∈ [less, equal, greater] ∧ op.Relates (.string " 9") ten) ∧
      ¬ less.IsFault nan ten ∧ (nan.isNaN || ten.isNaN) = true ∧ notEqual.Relates nan ten := by
  intro ten nan
  have hread : (Value.string " 9").numeric? = some (.integer 9) := by decide +kernel
  have hnine : ¬ less.IsFault (.string " 9") ten := fun h =>
    (isFault_iff (by decide)).1 h _ (.numbers hread rfl)
  have hnan : ¬ less.IsFault nan ten := fun h => (isFault_iff (by decide)).1 h _ (.numbers rfl rfl)
  obtain ⟨hexactly, -, -, hturned⟩ :=
    ((comparisons_agree (.string " 9") ten).2 hnine).2.2 (by decide)
  have hisNaN : (nan.isNaN || ten.isNaN) = true := by decide
  exact ⟨⟨hnine, by decide, hturned, hexactly⟩, hnan, hisNaN,
    (((comparisons_agree nan ten).2 hnan).2.1 hisNaN).2⟩

end PathQuery
