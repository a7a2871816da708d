/-
The parts of an expression and the names in it.

* **`Expr.parts`** — the expressions right below, save the body of a closure;
* **`Expr.nodes`** — all expressions in an expression, with those in bodies of closures;
* **`Expr.variableNames`, `Expr.functionNames`** — the names that are read and those that are
  called.
-/
import PathQuery.Expr

namespace PathQuery.Expr

/-- The expressions right below an expression that are evaluated where it is: all but the body of a
closure. -/
def parts : Expr → List Expr
  | .list es | .arguments es | .call _ es => es
  | .member o _ _ => [o]
  | .memberCall o _ args _ => o :: args
  | .arithmetic _ l r | .comparison _ l r | .logical _ l r | .coalesce l r => [l, r]
  | .ternary c t o => [c, t, o]
  | .elvis c o => [c, o]
  | .literal _ | .variable _ | .closure _ _ => []

mutual

/-- All expressions in an expression, itself and the bodies of closures included. -/
def nodes : Expr → List Expr
  | .literal v => [.literal v]
  | .variable name => [.variable name]
  | .list es => .list es :: nodesOfAll es
  | .arguments es => .arguments es :: nodesOfAll es
  | .member o name nullSafe => .member o name nullSafe :: nodes o
  | .memberCall o name args nullSafe =>
    .memberCall o name args nullSafe :: (nodes o ++ nodesOfAll args)
  | .call name args => .call name args :: nodesOfAll args
  | .arithmetic op l r => .arithmetic op l r :: (nodes l ++ nodes r)
  | .comparison op l r => .comparison op l r :: (nodes l ++ nodes r)
  | .logical op l r => .logical op l r :: (nodes l ++ nodes r)
  | .coalesce l r => .coalesce l r :: (nodes l ++ nodes r)
  | .ternary c t o => .ternary c t o :: (nodes c ++ nodes t ++ nodes o)
  | .elvis c o => .elvis c o :: (nodes c ++ nodes o)
  | .closure params body => .closure params body :: nodes body

/-- All expressions in the expressions of a list. -/
def nodesOfAll : List Expr → List Expr
  | [] => []
  | e :: rest => nodes e ++ nodesOfAll rest

end

theorem nodes_subset_nodesOfAll {e : Expr} {es : List Expr} (h : e ∈ es) :
    e.nodes ⊆ nodesOfAll es := by
  induction es with
  | nil => exact absurd h List.not_mem_nil
  | cons first rest ih =>
    rw [nodesOfAll]
    obtain rfl | h := List.mem_cons.1 h
    · exact List.subset_append_left _ _
    · exact List.Subset.trans (ih h) (List.subset_append_right _ _)

/-- What is in a part is in the whole. -/
theorem nodes_subset_of_mem_parts {p e : Expr} (h : p ∈ e.parts) : p.nodes ⊆ e.nodes := by
  intro x hx
  cases e with
  | literal v => exact absurd h List.not_mem_nil
  | «variable» name => exact absurd h List.not_mem_nil
  | closure params body => exact absurd h List.not_mem_nil
  | list es => exact List.mem_cons_of_mem _ (nodes_subset_nodesOfAll h hx)
  | arguments es => exact List.mem_cons_of_mem _ (nodes_subset_nodesOfAll h hx)
  | call name args => exact List.mem_cons_of_mem _ (nodes_subset_nodesOfAll h hx)
  | memberCall o name args nullSafe =>
    obtain rfl | h := List.mem_cons.1 h
    · exact List.mem_cons_of_mem _ (List.mem_append_left _ hx)
    · exact List.mem_cons_of_mem _ (List.mem_append_right _ (nodes_subset_nodesOfAll h hx))
  | _ =>
    simp only [parts, List.mem_cons, List.not_mem_nil, or_false] at h
    rcases h with rfl | rfl | rfl <;> simp [nodes, hx]

theorem nodes_body_subset (params : List String) (body : Expr) :
    body.nodes ⊆ (Expr.closure params body).nodes := List.subset_cons_self _ _

/-- The names that are read as variables. -/
def variableNames (e : Expr) : List String :=
  e.nodes.filterMap fun
    | .variable name => some name
    | _ => none

/-- The names that are called as functions. -/
def functionNames (e : Expr) : List String :=
  e.nodes.filterMap fun
    | .call name _ => some name
    | _ => none

theorem mem_variableNames_self (name : String) : name ∈ (Expr.variable name).variableNames :=
  List.mem_singleton.2 rfl

theorem mem_functionNames_self (name : String) (args : List Expr) :
    name ∈ (Expr.call name args).functionNames := List.mem_cons_self

theorem variableNames_subset {p e : Expr} (h : p.nodes ⊆ e.nodes) :
    p.variableNames ⊆ e.variableNames := List.filterMap_subset _ h

theorem functionNames_subset {p e : Expr} (h : p.nodes ⊆ e.nodes) :
    p.functionNames ⊆ e.functionNames := List.filterMap_subset _ h

end PathQuery.Expr
