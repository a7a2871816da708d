/-
Paths from the root of a tree to its leaves.

* **`Expr.IsPath`** — the nodes that a path goes through and the places where it goes on;
* **`Branch.isLink`, `Branch.isRightLink`** — an operator or a member step on a path, and one that
  the path leaves for a right operand or an argument;
* **`Expr.PathsLe`** — all paths of a tree have at most so many of some kind of branch;
* **`Expr.leftLinks`** — the operators and member steps on the path that goes on at the first place.
-/
import PathQuery.Proofs.Expr.Nodes
import PathQuery.Proofs.Expr.Parts

namespace PathQuery

/-- A node on a path, with the place at which the path goes on among the nodes right below. -/
structure Branch where
  node : Expr
  place : Nat

namespace Expr

/-- The expressions right below an expression, with the body of a closure. -/
def children : Expr → List Expr
  | .closure _ body => [body]
  | e => e.parts

/-- Whether the node is an operator or a member step. -/
def isLink : Expr → Bool
  | .arithmetic .. | .comparison .. | .logical .. | .coalesce .. | .member .. | .memberCall .. =>
    true
  | _ => false

/-- A path from the root to a leaf. -/
inductive IsPath : Expr → List Branch → Prop where
  | leaf {e : Expr} (h : e.children = []) : IsPath e []
  | branch {e c : Expr} {i : Nat} {rest : List Branch} (hc : e.children[i]? = some c)
      (h : IsPath c rest) : IsPath e (⟨e, i⟩ :: rest)

end Expr

namespace Branch

/-- An operator or a member step. -/
def isLink (b : Branch) : Bool := b.node.isLink

/-- An operator or a member step that the path leaves for a right operand or an argument. -/
def isRightLink (b : Branch) : Bool := b.isLink && b.place != 0

end Branch

namespace Expr

/-- All paths of the tree have at most `n` branches that satisfy `p`. -/
def PathsLe (p : Branch → Bool) (n : Nat) (e : Expr) : Prop :=
  ∀ path, e.IsPath path → path.countP p ≤ n

variable {p : Branch → Bool} {n k m : Nat} {e first : Expr} {rest : List Expr}

theorem PathsLe.mono (h : e.PathsLe p k) (hk : k ≤ n) : e.PathsLe p n :=
  fun path hpath => Nat.le_trans (h path hpath) hk

theorem countP_branch (p : Branch → Bool) (b : Branch) (path : List Branch) :
    (b :: path).countP p = path.countP p + (p b).toNat := by
  rw [List.countP_cons]
  cases p b <;> rfl

/-- A branch counts one on top of the path below it. -/
theorem pathsLe_of_children (h : ∀ (i : Nat) (c : Expr), e.children[i]? = some c →
    ∃ k, c.PathsLe p k ∧ k + (p ⟨e, i⟩).toNat ≤ n) : e.PathsLe p n := by
  intro path hpath
  cases hpath with
  | leaf => exact Nat.zero_le _
  | @branch _ c i rest hc hrest =>
    obtain ⟨k, hk, hn⟩ := h i c hc
    have hcount := hk rest hrest
    rw [countP_branch]
    omega

/-- A node that does not count. -/
theorem pathsLe_of_forall_not (hp : ∀ i, p ⟨e, i⟩ = false)
    (h : ∀ c ∈ e.children, c.PathsLe p n) : e.PathsLe p n := by
  refine pathsLe_of_children fun i c hc => ⟨n, h c (List.mem_of_getElem? hc), ?_⟩
  rw [hp i]
  exact Nat.le_refl n

/-- A node that may count. -/
theorem pathsLe_of_lt (h : ∀ c ∈ e.children, c.PathsLe p k) (hk : k < n) : e.PathsLe p n := by
  refine pathsLe_of_children fun i c hc => ⟨k, h c (List.mem_of_getElem? hc), ?_⟩
  have hone := Bool.toNat_le (p ⟨e, i⟩)
  omega

/-- A node that may count differently on the way to its first child. -/
theorem pathsLe_of_children_eq_cons (he : e.children = first :: rest) (hfirst : first.PathsLe p k)
    (hk : k + (p ⟨e, 0⟩).toNat ≤ n) (hrest : ∀ c ∈ rest, c.PathsLe p m) (hm : m < n) :
    e.PathsLe p n := by
  refine pathsLe_of_children fun i c hc => ?_
  rw [he] at hc
  cases i with
  | zero =>
    obtain rfl := Option.some.inj hc
    exact ⟨k, hfirst, hk⟩
  | succ i =>
    rw [List.getElem?_cons_succ] at hc
    have hone := Bool.toNat_le (p ⟨e, i + 1⟩)
    exact ⟨m, hrest c (List.mem_of_getElem? hc), by omega⟩

theorem pathsLe_leaf (h : e.children = []) (n : Nat) : e.PathsLe p n :=
  pathsLe_of_children fun i c hc => by rw [h] at hc; exact nomatch hc

/-- A minus sign is a branch, unless it joins a literal. -/
theorem pathsLe_negated (he : e.PathsLe p k) (hk : k < n) : e.negated.PathsLe p n := by
  unfold Expr.negated
  split
  · exact pathsLe_leaf rfl n
  · exact pathsLe_leaf rfl n
  · exact pathsLe_of_lt
      (List.forall_mem_cons.2 ⟨pathsLe_leaf rfl k, List.forall_mem_singleton.2 he⟩) hk

theorem children_join (op : BinaryOp) (l r : Expr) : (op.join l r).children = [l, r] := by
  cases op <;> rfl

/-! ### The leftmost path -/

/-- The operators and member steps at the top that follow each other from left operand to left
operand. -/
def leftLinks : Expr → Nat
  | .member o _ _ | .memberCall o _ _ _ => o.leftLinks + 1
  | .arithmetic _ l _ | .comparison _ l _ | .logical _ l _ | .coalesce l _ => l.leftLinks + 1
  | _ => 0

/-- A path may go on at the first place, where it goes through one link more if the node is one. -/
theorem exists_isPath_of_first (he : e.children = first :: rest)
    (h : ∃ path, first.IsPath path ∧ k ≤ path.countP Branch.isLink) :
    ∃ path, e.IsPath path ∧ k + e.isLink.toNat ≤ path.countP Branch.isLink := by
  obtain ⟨path, hpath, hk⟩ := h
  refine ⟨⟨e, 0⟩ :: path, .branch (by rw [he]; rfl) hpath, ?_⟩
  rw [countP_branch]
  exact Nat.add_le_add_right hk _

/-- The links at the top are on one path. -/
theorem exists_leftLinks_le (e : Expr) :
    ∃ path, e.IsPath path ∧ e.leftLinks ≤ path.countP Branch.isLink := by
  -- Behind the links at the top, any path will do.
  have hany (e : Expr) (h : ∀ c ∈ e.children, ∃ path, c.IsPath path ∧
      c.leftLinks ≤ path.countP Branch.isLink) :
      ∃ path, e.IsPath path ∧ 0 ≤ path.countP Branch.isLink := by
    cases hc : e.children with
    | nil => exact ⟨[], .leaf hc, Nat.le_refl 0⟩
    | cons first rest =>
      obtain ⟨path, hpath, -⟩ := exists_isPath_of_first hc (h first (hc ▸ List.mem_cons_self))
      exact ⟨path, hpath, Nat.zero_le _⟩
  induction e using treeInduction with
  | literal v => exact hany _ fun c hc => absurd hc List.not_mem_nil
  | name m => exact hany _ fun c hc => absurd hc List.not_mem_nil
  | list es ih => exact hany _ ih
  | arguments es ih => exact hany _ ih
  | member o m s ho => exact exists_isPath_of_first rfl ho
  | memberCall o m args s ho _ => exact exists_isPath_of_first rfl ho
  | call m args ih => exact hany _ ih
  | operation op l r hl _ => cases op <;> exact exists_isPath_of_first rfl hl
  | ternary c t o hc ht ho =>
    exact hany _ (List.forall_mem_cons.2 ⟨hc, List.forall_mem_cons.2 ⟨ht,
      List.forall_mem_singleton.2 ho⟩⟩)
  | elvis c o hc ho =>
    exact hany _ (List.forall_mem_cons.2 ⟨hc, List.forall_mem_singleton.2 ho⟩)
  | closure params body hbody => exact hany _ (List.forall_mem_singleton.2 hbody)

end Expr

end PathQuery
