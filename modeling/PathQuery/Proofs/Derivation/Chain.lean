/-
Chains of member steps.

* **`MemberStep`, `Expr.chain`** — steps as they stand in a tree;
* **`WrittenStep`** — steps as they are written;
* **`WrittenStep.treesBehind`** — steps of a chain are null-safe in the tree from its first `?.` on;
* **`Derivation.chains`** — the chains of steps that a derivation ends in, one in the parentheses of
  the next;
* **`Derivation.base`** — what they stand behind, which is no member step;
* **`Derivation.tree_eq_chain`** — the tree has all of their steps behind that of the base.
-/
import PathQuery.Proofs.Derivation

namespace PathQuery

/-! ### Trees -/

/-- A step of a chain: a member, called if there are arguments. -/
structure MemberStep where
  name : String
  arguments : Option (List Expr)
  nullSafe : Bool

namespace Expr

/-- An object with a step behind it. -/
def behind (object : Expr) (s : MemberStep) : Expr :=
  match s.arguments with
  | none => .member object s.name s.nullSafe
  | some args => .memberCall object s.name args s.nullSafe

/-- An object with several steps behind it. -/
def chain (object : Expr) (steps : List MemberStep) : Expr := steps.foldl behind object

theorem chain_append (object : Expr) (steps steps' : List MemberStep) :
    object.chain (steps ++ steps') = (object.chain steps).chain steps' :=
  List.foldl_append

theorem chain_concat (object : Expr) (steps : List MemberStep) (s : MemberStep) :
    object.chain (steps ++ [s]) = (object.chain steps).behind s :=
  chain_append object steps [s]

theorem negated_ne_behind (e object : Expr) (s : MemberStep) : e.negated ≠ object.behind s := by
  rcases s with ⟨name, _ | args, nullSafe⟩ <;> fun_cases negated e <;> exact Expr.noConfusion

end Expr

/-! ### Steps as they are written -/

structure WrittenStep where
  nullSafe : Bool
  name : MemberName
  arguments : Option Items

namespace WrittenStep

/-- The step in the tree, which is null-safe also behind a null-safe one. -/
def tree (nullSafe : Bool) (s : WrittenStep) : MemberStep :=
  ⟨s.name.text, s.arguments.map Items.trees, nullSafe⟩

/-- The steps in the tree; `nullSafe` says whether the chain has been null-safe before them. -/
def treesBehind (nullSafe : Bool) : List WrittenStep → List MemberStep
  | [] => []
  | s :: steps => s.tree (nullSafe || s.nullSafe) :: treesBehind (nullSafe || s.nullSafe) steps

theorem length_treesBehind (nullSafe : Bool) (steps : List WrittenStep) :
    (treesBehind nullSafe steps).length = steps.length := by
  induction steps generalizing nullSafe with
  | nil => rfl
  | cons s steps ih => exact congrArg (· + 1) (ih _)

theorem treesBehind_concat (nullSafe : Bool) (steps : List WrittenStep) (s : WrittenStep) :
    treesBehind nullSafe (steps ++ [s]) = treesBehind nullSafe steps ++
      [s.tree (nullSafe || steps.any WrittenStep.nullSafe || s.nullSafe)] := by
  induction steps generalizing nullSafe with
  | nil => rw [List.any_nil, Bool.or_false]; rfl
  | cons first steps ih =>
    rw [List.any_cons, ← Bool.or_assoc]
    exact congrArg (first.tree _ :: ·) (ih _)

/-- A step is null-safe if it or one before it in the chain is written with `?.`. -/
theorem nullSafe_treesBehind {nullSafe : Bool} {steps : List WrittenStep} {k : Nat}
    (hk : k < steps.length) :
    ((treesBehind nullSafe steps)[k]?).map MemberStep.nullSafe =
      some (nullSafe || (steps.take (k + 1)).any WrittenStep.nullSafe) := by
  induction steps generalizing nullSafe k with
  | nil => exact absurd hk (Nat.not_lt_zero k)
  | cons s steps ih =>
    rw [List.take_succ_cons, List.any_cons, ← Bool.or_assoc]
    cases k with
    | zero => rw [List.take_zero, List.any_nil, Bool.or_false]; rfl
    | succ k => exact ih (Nat.lt_of_succ_lt_succ hk)

/-- One more step in the last one of some chains. -/
def appendTo (chains : List (List WrittenStep)) (s : WrittenStep) : List (List WrittenStep) :=
  chains.dropLast ++ [chains.getLastD [] ++ [s]]

theorem appendTo_concat (chains : List (List WrittenStep)) (steps : List WrittenStep)
    (s : WrittenStep) : appendTo (chains ++ [steps]) s = chains ++ [steps ++ [s]] := by
  rw [appendTo, List.dropLast_concat, List.getLastD_concat]

end WrittenStep

/-! ### Derivations -/

namespace Derivation

/-- The chains of steps at the end of a derivation, those in parentheses first. -/
def chains : {n : Nonterminal} → Derivation n → List (List WrittenStep)
  | _, .condition c => c.chains
  | _, .operand _ x => x.chains
  | _, .path p => p.chains
  | _, .primary p => p.chains ++ [[]]
  | _, .step o nullSafe member => WrittenStep.appendTo o.chains ⟨nullSafe, member, none⟩
  | _, .stepCall o nullSafe member args =>
    WrittenStep.appendTo o.chains ⟨nullSafe, member, some args⟩
  | _, .group e => e.chains
  | _, _ => []

/-- The tree of what the chains stand behind. -/
def base : {n : Nonterminal} → Derivation n → Expr
  | _, .condition c => c.base
  | _, .operand _ x => x.base
  | _, .path p => p.base
  | _, .primary p => p.base
  | _, .step o _ _ => o.base
  | _, .stepCall o _ _ _ => o.base
  | _, .group e => e.base
  | _, t => t.tree

/-- The steps of the chain that a derivation of one ends in. -/
def lastChain : {n : Nonterminal} → Derivation n → List WrittenStep
  | _, .step o nullSafe member => o.lastChain ++ [⟨nullSafe, member, none⟩]
  | _, .stepCall o nullSafe member args => o.lastChain ++ [⟨nullSafe, member, some args⟩]
  | _, _ => []

/-- A path is null-safe if a step of its last chain is written with `?.`. -/
theorem nullSafe_eq_any : (x : Derivation .path) →
    x.nullSafe = x.lastChain.any WrittenStep.nullSafe
  | .primary _ => rfl
  | .step o _ _ => by
    rw [nullSafe, lastChain, List.any_append, nullSafe_eq_any o, List.any_cons, List.any_nil,
      Bool.or_false]
  | .stepCall o _ _ _ => by
    rw [nullSafe, lastChain, List.any_append, nullSafe_eq_any o, List.any_cons, List.any_nil,
      Bool.or_false]

theorem exists_chains_eq : (x : Derivation .path) → ∃ earlier, x.chains = earlier ++ [x.lastChain]
  | .primary p => ⟨p.chains, rfl⟩
  | .step o _ _ => by
    obtain ⟨earlier, h⟩ := exists_chains_eq o
    exact ⟨earlier, by rw [chains, h, WrittenStep.appendTo_concat, lastChain]⟩
  | .stepCall o _ _ _ => by
    obtain ⟨earlier, h⟩ := exists_chains_eq o
    exact ⟨earlier, by rw [chains, h, WrittenStep.appendTo_concat, lastChain]⟩

/-- The steps of all the chains as they stand in the tree. -/
def steps {n : Nonterminal} (t : Derivation n) : List MemberStep :=
  t.chains.flatMap (WrittenStep.treesBehind false)

/-- A step is null-safe if it or one before it in its chain is written with `?.`, whatever there is in
the other chains. -/
theorem nullSafe_steps {n : Nonterminal} {t : Derivation n}
    {earlier later : List (List WrittenStep)} {written : List WrittenStep}
    (h : t.chains = earlier ++ written :: later) {k : Nat} (hk : k < written.length) :
    (t.steps[earlier.flatten.length + k]?).map MemberStep.nullSafe =
      some ((written.take (k + 1)).any WrittenStep.nullSafe) := by
  have hlength : (earlier.flatMap (WrittenStep.treesBehind false)).length =
      earlier.flatten.length := by
    simp only [List.length_flatMap, WrittenStep.length_treesBehind, List.length_flatten]
  rw [steps, h, List.flatMap_append, List.flatMap_cons, ← hlength,
    List.getElem?_append_right (Nat.le_add_right _ _), Nat.add_sub_cancel_left,
    List.getElem?_append_left (by rwa [WrittenStep.length_treesBehind]),
    WrittenStep.nullSafe_treesBehind hk, Bool.false_or]

/-- One step more is null-safe behind a null-safe path. -/
theorem flatMap_appendTo (x : Derivation .path) (s : WrittenStep) :
    (WrittenStep.appendTo x.chains s).flatMap (WrittenStep.treesBehind false) =
      x.steps ++ [s.tree (x.nullSafe || s.nullSafe)] := by
  obtain ⟨earlier, h⟩ := exists_chains_eq x
  rw [steps, h, WrittenStep.appendTo_concat, List.flatMap_append, List.flatMap_append,
    List.flatMap_singleton, List.flatMap_singleton, WrittenStep.treesBehind_concat,
    nullSafe_eq_any, Bool.false_or, List.append_assoc]

/-- The tree is its base with the steps behind it. -/
theorem tree_eq_chain : {n : Nonterminal} → (t : Derivation n) → t.tree = t.base.chain t.steps
  | _, .condition c => tree_eq_chain c
  | _, .elvis _ _ => rfl
  | _, .ternary _ _ _ => rfl
  | _, .operand _ x => tree_eq_chain x
  | _, .operation _ _ _ _ _ => rfl
  | _, .path p => tree_eq_chain p
  | _, .minus _ => rfl
  | _, .primary p => by
    rw [tree, base, steps, chains, List.flatMap_append]
    exact (tree_eq_chain p).trans (congrArg _ (List.append_nil _).symm)
  | _, .step o _ _ => by
    rw [steps, chains, flatMap_appendTo, Expr.chain_concat, base, ← tree_eq_chain o]
    rfl
  | _, .stepCall o _ _ _ => by
    rw [steps, chains, flatMap_appendTo, Expr.chain_concat, base, ← tree_eq_chain o]
    rfl
  | _, .literal _ => rfl
  | _, .name _ => rfl
  | _, .call _ _ => rfl
  | _, .group e => tree_eq_chain e
  | _, .list _ => rfl
  | _, .closure _ _ _ _ => rfl

/-- All member steps at the end of the tree are among the steps. -/
theorem base_ne_behind (object : Expr) (s : MemberStep) :
    {n : Nonterminal} → (t : Derivation n) → t.base ≠ object.behind s
  | _, .condition c => base_ne_behind object s c
  | _, .operand _ x => base_ne_behind object s x
  | _, .path p => base_ne_behind object s p
  | _, .primary p => base_ne_behind object s p
  | _, .step o _ _ => base_ne_behind object s o
  | _, .stepCall o _ _ _ => base_ne_behind object s o
  | _, .group e => base_ne_behind object s e
  | _, .minus x => Expr.negated_ne_behind x.tree object s
  | _, .operation _ op _ l r => by
    rcases s with ⟨name, _ | args, nullSafe⟩ <;> cases op <;> exact Expr.noConfusion
  | _, .elvis _ _ | _, .ternary _ _ _ | _, .literal _ | _, .name _ | _, .call _ _ | _, .list _
  | _, .closure _ _ _ _ => by
    rcases s with ⟨name, _ | args, nullSafe⟩ <;> exact Expr.noConfusion

end Derivation

end PathQuery
