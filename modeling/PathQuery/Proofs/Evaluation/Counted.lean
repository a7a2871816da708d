/-
Evaluation with a counter of levels.

* **`evaluateCounted`** — evaluation that does not know its level: a counter beside the state of the
  host is raised before each node and dropped behind it, also when the node fails;
* **`evalCounted_follows`** — from each count on it has the same answer as the evaluator at that
  level, and it leaves the count as it was;
* **`inTurn_evaluateCounted`** — so evaluations that share a counter have the answers of evaluations
  from level zero.

Design notes: the host may call closures in the middle of a request, and these count on from where
the request was made.  The simulation has the count as a parameter, which is one more for what is
below a node.
-/
import PathQuery.Proofs.Evaluation.Simulation.SameHost
import PathQuery.Proofs.Host.Journal

namespace PathQuery

variable {σ : Type}

/-! ### Counting -/

/-- A host that does not touch what is beside its state. -/
def Host.beside (γ : Type) (host : Host σ) : Host (σ × γ) where
  call function args s := (host.call function args s.1).beside s.2
  force lazy s := (host.force lazy s.1).beside s.2
  intercept interceptor v s := (host.intercept interceptor v s.1).beside s.2
  hasMethod object name s :=
    let (answer, state) := host.hasMethod object name s.1
    (answer, state, s.2)
  callMethod object name args s := (host.callMethod object name args s.1).beside s.2
  property object name s :=
    let (answer, state) := host.property object name s.1
    (answer, state, s.2)

/-- Changes the count of a world. -/
def World.recount (f : Nat → Nat) (w : World (σ × Nat)) : World (σ × Nat) :=
  { w with state := (w.state.1, f w.state.2) }

/-- Counts a level for as long as `m` runs.  At the limit `m` is not run. -/
def counting (limit : Nat) (m : Eval (σ × Nat) Value) : Eval (σ × Nat) Value := do
  if (← get).state.2 + 1 > limit then throw (.depthExceeded limit)
  else
    modify (·.recount (· + 1))
    let answer ← Eval.ofRun.observing m
    modify (·.recount (· - 1))
    Eval.ofExcept answer

/-- The evaluator that counts; `levels` bounds its recursion only. -/
def evalCounted (host : Host σ) : (levels : Nat) → Evaluator (σ × Nat)
  | 0 => fun env _ _ => throw (.depthExceeded env.options.maxDepth)
  | levels + 1 => fun env context e =>
    counting env.options.maxDepth (step (host.beside Nat) (evalCounted host levels) env context e)

/-- The value of an expression, from the count of the world on. -/
def evaluateCounted (host : Host σ) (env : Environment) (context : Context) (e : Expr) :
    Eval (σ × Nat) Value := do
  evalCounted host ((← get).levels env) env context e

/-! ### The counter and the level -/

/-- Evaluation from a count on beside evaluation at that level. -/
def countingFrom (σ : Type) (depth : Nat) : Simulation (σ × Nat) σ where
  worlds w w' := w = w'.beside depth
  scenes s s' _ := s = s'
  cutOff _ := False
  size_closures h := by rw [h]; rfl
  called {w w' i c c'} h hc hc' := by
    rw [h] at hc
    obtain rfl := Option.some.inj (hc.symm.trans hc')
    exact ⟨rfl, fun args => rfl⟩
  made h hs := by rw [h, hs]; rfl
  part hs _ _ := hs
  interceptor hs := by rw [hs]
  variable_get hs := by rw [hs]; exact ⟨rfl, rfl, fun _ => rfl⟩
  variable_strict hs := .inl (by rw [hs])
  call_get hs := by rw [hs]
  maxDepth hs := .inl (by rw [hs])

section

variable {host : Host σ} {depth : Nat}

theorem HostRun.beside_follows_counting (run : HostRun σ) (w : World σ) :
    HostRun.Follows (countingFrom σ depth) (w.beside depth) w (run.beside depth) run := by
  induction run generalizing w with
  | done answer state => exact .done answer rfl
  | invoke closure args state resume ih =>
    refine .invoke closure args rfl (fun _ _ => False.elim) fun answer v v' hv _ => ?_
    rw [hv]
    exact ih answer v'.state v'

theorem requests_beside (run : σ → HostRun σ) :
    (countingFrom σ depth).Requests (fun s => (run s.1).beside s.2) run := by
  rintro _ w rfl
  exact HostRun.beside_follows_counting (run w.state) w

theorem onState_beside {α : Type} (f : σ → α × σ) :
    (countingFrom σ depth).Follows
      (Eval.onState fun s => let (answer, state) := f s.1; (answer, state, s.2))
      (Eval.onState f) := by
  rintro _ w rfl
  exact .alike _ rfl

theorem Host.follows_beside (host : Host σ) :
    Host.Follows (countingFrom σ depth) (host.beside Nat) host where
  call _ _ := requests_beside _
  force _ := requests_beside _
  intercept _ _ := requests_beside _
  hasMethod _ _ := onState_beside _
  callMethod _ _ _ := requests_beside _
  property _ _ := onState_beside _

/-- At the limit nothing runs. -/
theorem runIn_counting_of_le {limit : Nat} (h : limit ≤ depth) (m : Eval (σ × Nat) Value)
    (w : World σ) :
    (counting limit m).runIn (w.beside depth) =
      (.error (.depthExceeded limit), w.beside depth) := by
  have hcount : (w.beside depth).state.2 + 1 > limit := Nat.lt_succ_of_le h
  rw [counting, Eval.runIn_bind_of_ok (Eval.runIn_get _), if_pos hcount]
  rfl

/-- Below the limit the count is raised and dropped again, whatever the answer is. -/
theorem runIn_counting_of_lt {limit : Nat} (h : depth < limit) (m : Eval (σ × Nat) Value)
    (w : World σ) :
    (counting limit m).runIn (w.beside depth) =
      ((m.runIn (w.beside (depth + 1))).1,
        (m.runIn (w.beside (depth + 1))).2.recount (· - 1)) := by
  have hcount : ¬ (w.beside depth).state.2 + 1 > limit := Nat.not_lt.2 h
  rw [counting, Eval.runIn_bind_of_ok (Eval.runIn_get _), if_neg hcount]
  change (Eval.ofExcept (m.runIn (w.beside (depth + 1))).1).runIn _ = _
  cases (m.runIn (w.beside (depth + 1))).1 <;> rfl

/-- From a count on, evaluation has the answer of evaluation at that level, and behind it the count
is what it was. -/
theorem evalCounted_follows (host : Host σ) (levels depth : Nat) :
    (countingFrom σ depth).Evaluators (evalCounted host levels) (evalAt host levels depth) := by
  induction levels generalizing depth with
  | zero =>
    rintro s _ e rfl
    exact .throw _
  | succ levels ih =>
    rintro s _ e rfl _ w rfl
    rw [evalCounted]
    rcases Nat.lt_or_ge depth s.environment.options.maxDepth with hlt | hge
    · -- The nodes below are evaluated from one more on.
      have hstep := step_follows host.follows_beside (ih (depth + 1)) (e := e) (rfl : s = s) _ w rfl
      obtain ⟨hanswer, hworld⟩ := hstep.eq_of_forall_not fun _ => id
      rw [runIn_counting_of_lt hlt, evalAt_of_lt hlt, hanswer, hworld]
      exact .alike _ rfl
    · rw [runIn_counting_of_le hge, evalAt_of_le hge]
      exact .alike _ rfl

/-- The count is left as it was, and from zero on the answer is that of an evaluation. -/
theorem runIn_evaluateCounted (env : Environment) (context : Context) (e : Expr) (depth : Nat)
    (w : World σ) :
    (evaluateCounted host env context e).runIn (w.beside depth) =
      (((evalAt host (w.levels env) depth env context e).runIn w).1,
        ((evalAt host (w.levels env) depth env context e).runIn w).2.beside depth) := by
  have hfollows := evalCounted_follows host (w.levels env) depth (e := e)
    (rfl : Scene.mk env context = ⟨env, context⟩) _ w rfl
  obtain ⟨hanswer, hworld⟩ := hfollows.eq_of_forall_not fun _ => id
  exact Prod.ext hanswer hworld

/-! ### Evaluations in turn -/

/-- Evaluates expressions one behind the other, each with an engine and variables of its own, and
goes on behind errors. -/
def inTurn (run : Scene → Expr → Eval σ Value) :
    List (Scene × Expr) → World σ → List (Except EvalError Value) × World σ
  | [], w => ([], w)
  | (s, e) :: rest, w =>
    let (answer, w) := (run s e).runIn w
    let (answers, w) := inTurn run rest w
    (answer :: answers, w)

/-- Evaluations that share a counter have the answers of evaluations from level zero, and behind
them the count is zero. -/
theorem inTurn_evaluateCounted (es : List (Scene × Expr)) (w : World σ) :
    inTurn (fun s e => evaluateCounted host s.environment s.context e) es (w.beside 0) =
      ((inTurn (fun s e => evaluate host s.environment s.context e) es w).1,
        (inTurn (fun s e => evaluate host s.environment s.context e) es w).2.beside 0) := by
  induction es generalizing w with
  | nil => rfl
  | cons first es ih =>
    obtain ⟨s, e⟩ := first
    simp only [inTurn, runIn_evaluateCounted, runIn_evaluate, ih]

end

end PathQuery
