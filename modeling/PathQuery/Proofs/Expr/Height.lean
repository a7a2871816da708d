/-
The height of expressions.

* **`Expr.height`** — the number of nodes on the longest way down;
* **`Expr.height_le_succ_iff`** — an expression is one node higher than its highest part;
* **`Expr.IsCallFree`** — expressions without closures, function calls and member accesses;
* **`Expr.IsTotal`** — expressions of nodes that have a value whenever their parts do.

Design notes: kinds of expressions are conditions on all their nodes, so what is known of an
expression is known of its parts.
-/
import PathQuery.Proofs.Expr.Parts

namespace PathQuery

/-- Whether an operator asks for equality and not for an order. -/
def ComparisonOp.isEquality : ComparisonOp → Bool
  | .equal | .identical | .notEqual | .notIdentical => true
  | _ => false

namespace Expr

/-! ### Height -/

mutual

/-- The number of nodes on the longest way down; a leaf counts one. -/
def height : Expr → Nat
  | .literal _ | .variable _ => 1
  | .list es | .arguments es | .call _ es => heightOfAll es + 1
  | .member o _ _ => height o + 1
  | .memberCall o _ args _ => max (height o) (heightOfAll args) + 1
  | .arithmetic _ l r | .comparison _ l r | .logical _ l r | .coalesce l r =>
    max (height l) (height r) + 1
  | .ternary c t o => max (height c) (max (height t) (height o)) + 1
  | .elvis c o => max (height c) (height o) + 1
  | .closure _ body => height body + 1

/-- The height of the highest expression of a list; none is zero high. -/
def heightOfAll : List Expr → Nat
  | [] => 0
  | e :: rest => max (height e) (heightOfAll rest)

end

theorem height_pos (e : Expr) : 0 < e.height := by
  cases e <;> exact Nat.succ_pos _

theorem heightOfAll_le_iff {es : List Expr} {n : Nat} :
    heightOfAll es ≤ n ↔ ∀ e ∈ es, e.height ≤ n := by
  induction es with
  | nil => exact iff_of_true (Nat.zero_le n) fun _ h => absurd h List.not_mem_nil
  | cons e es ih => rw [heightOfAll, Nat.max_le, List.forall_mem_cons, ih]

/-- An expression is one node higher than its parts; the body of a closure is none. -/
theorem height_le_succ_iff {e : Expr} (h : e.isClosure = false) {n : Nat} :
    e.height ≤ n + 1 ↔ ∀ p ∈ e.parts, p.height ≤ n := by
  cases e with
  | closure params body => exact nomatch h
  | _ =>
    simp only [height, parts, Nat.add_le_add_iff_right, Nat.max_le, heightOfAll_le_iff,
      List.forall_mem_cons, List.not_mem_nil, false_imp_iff, implies_true, and_true,
      Nat.le_add_left]

/-! ### Kinds of expressions -/

theorem mem_nodes_self (e : Expr) : e ∈ e.nodes := by
  cases e <;> simp [nodes]

/-- Whether a node is a closure, a function call or a member access. -/
def isCallOrMember : Expr → Bool
  | .closure .. | .call .. | .member .. | .memberCall .. => true
  | _ => false

/-- No node is a closure, a function call or a member access. -/
def IsCallFree (e : Expr) : Prop := ∀ n ∈ e.nodes, n.isCallOrMember = false

/-- Whether a node is a literal, a variable, a list, one of the four equalities or a logical
operator: those have a value whenever their parts do. -/
def isTotalNode : Expr → Bool
  | .literal _ | .variable _ | .list _ | .logical .. => true
  | .comparison op _ _ => op.isEquality
  | _ => false

/-- All nodes have a value whenever their parts do. -/
def IsTotal (e : Expr) : Prop := ∀ n ∈ e.nodes, n.isTotalNode = true

theorem IsCallFree.isClosure_eq_false {e : Expr} (h : e.IsCallFree) : e.isClosure = false := by
  have hself := h e e.mem_nodes_self
  cases e <;> first | rfl | exact nomatch hself

theorem IsTotal.isClosure_eq_false {e : Expr} (h : e.IsTotal) : e.isClosure = false := by
  have hself := h e e.mem_nodes_self
  cases e <;> first | rfl | exact nomatch hself

theorem IsCallFree.part {e p : Expr} (h : e.IsCallFree) (hp : p ∈ e.parts) : p.IsCallFree :=
  fun n hn => h n (nodes_subset_of_mem_parts hp hn)

theorem IsTotal.part {e p : Expr} (h : e.IsTotal) (hp : p ∈ e.parts) : p.IsTotal :=
  fun n hn => h n (nodes_subset_of_mem_parts hp hn)

instance (e : Expr) : Decidable e.IsCallFree := inferInstanceAs (Decidable (∀ n ∈ e.nodes, _))

instance (e : Expr) : Decidable e.IsTotal := inferInstanceAs (Decidable (∀ n ∈ e.nodes, _))

end Expr

end PathQuery
