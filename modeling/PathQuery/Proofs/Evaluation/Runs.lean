/-
Running evaluations.

* **`Eval.runIn_bind`** — a sequence of two evaluations;
* **`Eval.runIn_bind_eq_ok_iff`, `Eval.runIn_bind_eq_error_iff`** — where it comes to an answer;
* **`Eval.runIn_ofRun_done`, `Eval.runIn_ofRun_invoke`** — the course of a request to the host;
* **`evalAt_of_le`, `evalAt_of_lt`** — the two cases of a level;
* **`Host.constant`** — a host to run with.
-/
import PathQuery.Evaluation

namespace PathQuery.Eval

variable {σ α β : Type} {w w' : World σ} {m : Eval σ α} {f : α → Eval σ β}

@[simp] theorem runIn_pure (a : α) (w : World σ) : (pure a : Eval σ α).runIn w = (.ok a, w) := rfl

@[simp] theorem runIn_get (w : World σ) : (get : Eval σ (World σ)).runIn w = (.ok w, w) := rfl

@[simp] theorem runIn_onState (f : σ → α × σ) (w : World σ) :
    (onState f).runIn w = (.ok (f w.state).1, { w with state := (f w.state).2 }) := rfl

theorem runIn_bind (m : Eval σ α) (f : α → Eval σ β) (w : World σ) :
    (m >>= f).runIn w = match m.runIn w with
      | (.ok a, w') => (f a).runIn w'
      | (.error e, w') => (.error e, w') := by
  change (ExceptT.bindCont _ (m.runIn w).1 : StateM (World σ) _).run (m.runIn w).2 = _
  rcases m.runIn w with ⟨answer, w'⟩
  cases answer <;> rfl

theorem runIn_bind_of_ok {a : α} (h : m.runIn w = (.ok a, w')) :
    (m >>= f).runIn w = (f a).runIn w' := by
  rw [runIn_bind, h]

theorem runIn_bind_eq_ok_iff {b : β} :
    (m >>= f).runIn w = (.ok b, w') ↔
      ∃ a w₁, m.runIn w = (.ok a, w₁) ∧ (f a).runIn w₁ = (.ok b, w') := by
  rw [runIn_bind]
  rcases m.runIn w with ⟨e | a, w₁⟩
  · simp
  · refine ⟨fun h => ⟨a, w₁, rfl, h⟩, ?_⟩
    rintro ⟨a', w', heq, h⟩
    cases heq
    exact h

theorem runIn_bind_eq_error_iff {e : EvalError} :
    (m >>= f).runIn w = (.error e, w') ↔ m.runIn w = (.error e, w') ∨
      ∃ a w₁, m.runIn w = (.ok a, w₁) ∧ (f a).runIn w₁ = (.error e, w') := by
  rw [runIn_bind]
  rcases m.runIn w with ⟨e' | a, w₁⟩
  · simp
  · refine ⟨fun h => .inr ⟨a, w₁, rfl, h⟩, ?_⟩
    rintro (heq | ⟨a', w', heq, h⟩) <;> cases heq
    exact h

theorem runIn_bind_pure (m : Eval σ α) (g : α → β) (w : World σ) :
    (m >>= fun a => pure (g a)).runIn w = ((m.runIn w).1.map g, (m.runIn w).2) := by
  rw [runIn_bind]
  rcases m.runIn w with ⟨e | a, w₁⟩ <;> rfl

/-- A sequence goes on with the answer of its first part, in the world that this one leaves. -/
theorem runIn_bind_eq_ofExcept (m : Eval σ α) (f : α → Eval σ β) (w : World σ) :
    (m >>= f).runIn w = (ofExcept (m.runIn w).1 >>= f).runIn (m.runIn w).2 := by
  rw [runIn_bind, runIn_bind]
  rcases m.runIn w with ⟨answer, w'⟩
  cases answer <;> rfl

/-! ### Requests -/

variable {invoke : Nat → List Value → Eval σ Value}

theorem runIn_ofRun_done (answer : Except EvalError Value) (state : σ) (w : World σ) :
    (ofRun invoke (.done answer state)).runIn w = (answer, { w with state := state }) := by
  cases answer <;> rfl

/-- A closure is called, and the host goes on with its answer, in the world that it leaves. -/
theorem runIn_ofRun_invoke (closure : Nat) (args : List Value) (state : σ)
    (resume : Except EvalError Value → σ → HostRun σ) (w : World σ) :
    (ofRun invoke (.invoke closure args state resume)).runIn w =
      (ofRun invoke (resume ((invoke closure args).runIn { w with state := state }).1
          ((invoke closure args).runIn { w with state := state }).2.state)).runIn
        ((invoke closure args).runIn { w with state := state }).2 := rfl

/-- The state of the host at the start of a request is in its course, not in the world. -/
theorem runIn_ofRun_congr {run : HostRun σ} (h : w.closures = w'.closures) :
    (ofRun invoke run).runIn w = (ofRun invoke run).runIn w' := by
  cases run with
  | done answer state => rw [runIn_ofRun_done, runIn_ofRun_done, h]
  | invoke closure args state resume => rw [runIn_ofRun_invoke, runIn_ofRun_invoke, h]

end PathQuery.Eval

namespace PathQuery

variable {σ : Type} {host : Host σ} {env : Environment} {context : Context} {e : Expr}
  {levels depth : Nat}

/-! ### Levels -/

/-- At the limit of the engine nothing is evaluated. -/
theorem evalAt_of_le (h : env.options.maxDepth ≤ depth) :
    evalAt host levels depth env context e = throw (.depthExceeded env.options.maxDepth) := by
  cases levels with
  | zero => rfl
  | succ levels => exact if_pos h

/-- Below the limit a level is used up. -/
theorem evalAt_of_lt (h : depth < env.options.maxDepth) :
    evalAt host (levels + 1) depth env context e =
      step host (evalAt host levels (depth + 1)) env context e := if_neg (Nat.not_le.2 h)

theorem le_foldl_max {α : Type} (f : α → Nat) (as : List α) (n : Nat) :
    n ≤ as.foldl (fun n a => max n (f a)) n := by
  induction as generalizing n with
  | nil => exact Nat.le_refl n
  | cons a as ih => exact Nat.le_trans (Nat.le_max_left n (f a)) (ih _)

/-- A world has levels enough for the engine. -/
theorem maxDepth_le_levels (w : World σ) (env : Environment) :
    env.options.maxDepth ≤ w.levels env := by
  rw [World.levels, ← Array.foldl_toList]
  exact le_foldl_max (fun c : Closure => c.environment.options.maxDepth) _ _

/-- What runs at the top has the levels of the world that it starts in. -/
theorem runIn_atTop {α : Type} (run : Evaluator σ → Eval σ α) (w : World σ) :
    (atTop host env run).runIn w = (run (evalAt host (w.levels env) 0)).runIn w := by
  rw [atTop, Eval.runIn_bind_of_ok (Eval.runIn_get w)]

theorem runIn_resolveName (name : String) (w : World σ) :
    (resolveName host env name context).runIn w =
      (resolve host (evalAt host (w.levels env) 0) name context env.globals).runIn w :=
  runIn_atTop _ w

theorem runIn_evaluate (w : World σ) :
    (evaluate host env context e).runIn w =
      (evalAt host (w.levels env) 0 env context e).runIn w := runIn_atTop _ w

/-- At a limit of zero levels no expression has a value. -/
theorem runIn_evaluate_of_zero (h : env.options.maxDepth = 0) (w : World σ) :
    (evaluate host env context e).runIn w = (.error (.depthExceeded 0), w) := by
  rw [runIn_evaluate, evalAt_of_le (Nat.le_of_eq h), h]
  rfl

/-- The first level of an evaluation. -/
theorem runIn_evaluate_of_pos (h : 0 < env.options.maxDepth) (w : World σ) :
    (evaluate host env context e).runIn w =
      (step host (evalAt host (w.levels env - 1) 1) env context e).runIn w := by
  have hlevels : 0 < w.levels env := Nat.lt_of_lt_of_le h (maxDepth_le_levels w env)
  rw [runIn_evaluate, ← Nat.sub_one_add_one (Nat.ne_of_gt hlevels), evalAt_of_lt h,
    Nat.add_sub_cancel]

/-! ### A host -/

/-- A host that answers all calls with one value, and has no objects. -/
def Host.constant (v : Value) : Host Unit where
  call _ _ _ := .done (.ok v) ()
  force _ _ := .done (.ok v) ()
  intercept _ target _ := .done (.ok target) ()
  hasMethod _ _ _ := (false, ())
  callMethod _ _ _ _ := .done (.ok v) ()
  property _ _ _ := (none, ())

end PathQuery
