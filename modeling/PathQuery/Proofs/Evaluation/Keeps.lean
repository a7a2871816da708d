/-
What every evaluation does to the world.

* **`Eval.Keeps`** — an evaluation leads each world to one that is related to it;
* **`HostRun.Keeps`, `Host.Keeps`** — so does the host, whatever closures do meanwhile;
* **`Composed.keeps`** — what is composed of steps keeps what the level below and the host keep;
* **`evalAt_keeps`** — and so all levels do.

Design notes: the relation is any preorder of worlds in which making a closure leads upwards.  The
result of an evaluation does not matter, it may be an error.
-/
import PathQuery.Proofs.Evaluation.Composed

namespace PathQuery

variable {σ : Type}

/-- A preorder of worlds in which a world with one more closure comes later. -/
structure WorldOrder (σ : Type) where
  rel : World σ → World σ → Prop
  refl : ∀ w, rel w w
  trans : ∀ {u v w}, rel u v → rel v w → rel u w
  closure : ∀ (w : World σ) (c : Closure), rel w { w with closures := w.closures.push c }

/-- An evaluation leads each world to a later one. -/
def Eval.Keeps (R : WorldOrder σ) {α : Type} (m : Eval σ α) : Prop :=
  ∀ w, R.rel w (m.runIn w).2

/-- The course of a request leads from a world to later ones, if closures do so meanwhile. -/
def HostRun.Keeps (R : WorldOrder σ) (w : World σ) : HostRun σ → Prop
  | .done _ state => R.rel w { w with state := state }
  | .invoke _ _ state resume =>
    R.rel w { w with state := state } ∧
      ∀ answer w', R.rel { w with state := state } w' → (resume answer w'.state).Keeps R w'

/-- Whatever is asked of a host leads to later worlds. -/
structure Host.Keeps (R : WorldOrder σ) (host : Host σ) : Prop where
  call : ∀ function args w, (host.call function args w.state).Keeps R w
  force : ∀ lazy w, (host.force lazy w.state).Keeps R w
  intercept : ∀ interceptor v w, (host.intercept interceptor v w.state).Keeps R w
  hasMethod : ∀ object name (w : World σ),
    R.rel w { w with state := (host.hasMethod object name w.state).2 }
  callMethod : ∀ object name args w, (host.callMethod object name args w.state).Keeps R w
  property : ∀ object name (w : World σ),
    R.rel w { w with state := (host.property object name w.state).2 }

namespace Eval.Keeps

variable {R : WorldOrder σ} {α β : Type}

/-! ### Steps of evaluations -/

theorem pure (a : α) : Keeps R (Pure.pure a : Eval σ α) := fun w => R.refl w

theorem throw (e : EvalError) : Keeps R (MonadExcept.throw e : Eval σ α) := fun w => R.refl w

theorem bind {m : Eval σ α} {f : α → Eval σ β} (hm : Keeps R m) (hf : ∀ a, Keeps R (f a)) :
    Keeps R (m >>= f) := by
  intro w
  have hfirst : R.rel w (m.runIn w).2 := hm w
  rw [runIn_bind]
  rcases hrun : m.runIn w with ⟨answer, w'⟩
  rw [hrun] at hfirst
  cases answer with
  | ok a => exact R.trans hfirst (hf a w')
  | error e => exact hfirst

theorem get : Keeps R (MonadState.get : Eval σ (World σ)) := fun w => R.refl w

theorem newClosure (c : Closure) : Keeps R (Eval.newClosure c : Eval σ FunctionRef) :=
  fun w => R.closure w c

/-- A request is run from the world that its course starts from. -/
theorem ofRun {invoke : Nat → List Value → Eval σ Value}
    (hinvoke : ∀ closure args, Keeps R (invoke closure args)) {run : HostRun σ} :
    ∀ {w : World σ}, run.Keeps R w → R.rel w ((Eval.ofRun invoke run).runIn w).2 := by
  induction run with
  | done answer state =>
    intro w h
    rw [runIn_ofRun_done]
    exact h
  | invoke closure args state resume ih =>
    intro w h
    have hclosure := hinvoke closure args { w with state := state }
    rw [runIn_ofRun_invoke]
    -- To the closure, through it, and from its answer on by induction.
    exact R.trans h.1 (R.trans hclosure (ih _ _ (h.2 _ _ hclosure)))

end Eval.Keeps

/-! ### Requests -/

section

variable {R : WorldOrder σ} {host : Host σ} {below : Evaluator σ}

/-- The level below keeps to the order. -/
def Evaluator.Keeps (R : WorldOrder σ) (below : Evaluator σ) : Prop :=
  ∀ env context e, (below env context e).Keeps R

theorem callClosure_keeps (hbelow : below.Keeps R) (index : Nat) (args : List Value) :
    (callClosure below index args).Keeps R := by
  refine .bind .get fun w => ?_
  cases w.closures[index]? with
  | some c => exact hbelow _ _ _
  | none => exact .pure _

theorem request_keeps (hbelow : below.Keeps R) {run : σ → HostRun σ}
    (hrun : ∀ w, (run w.state).Keeps R w) : (request below run).Keeps R := by
  intro w
  exact Eval.Keeps.ofRun (callClosure_keeps hbelow) (hrun w)

/-- What a host is asked to run leads to later worlds. -/
theorem Host.Keeps.asks (hhost : host.Keeps R) {run : σ → HostRun σ} (h : host.Asks run)
    (w : World σ) : (run w.state).Keeps R w := by
  cases h with
  | call function args => exact hhost.call function args w
  | force lazy => exact hhost.force lazy w
  | intercept interceptor v => exact hhost.intercept interceptor v w
  | callMethod object name args => exact hhost.callMethod object name args w

/-! ### Levels -/

/-- What is composed of steps keeps what the level below and the host keep. -/
theorem Composed.keeps {α : Type} {m : Evaluator σ → Eval σ α} (h : Composed host m)
    (hhost : host.Keeps R) (hbelow : below.Keeps R) : (m below).Keeps R := by
  induction h with
  | pure a => exact .pure a
  | throw e => exact .throw e
  | bind hm hf ihm ihf => exact ihm.bind ihf
  | eval env context e => exact hbelow env context e
  | callClosure index args => exact callClosure_keeps hbelow index args
  | request hrun => exact request_keeps hbelow (hhost.asks hrun)
  | hasMethod object name => exact hhost.hasMethod object name
  | property object name => exact hhost.property object name
  | newClosure c => exact .newClosure c

/-- All levels do, by induction on how many there are. -/
theorem evalAt_keeps (hhost : host.Keeps R) (levels : Nat) :
    ∀ depth, Evaluator.Keeps R (evalAt host levels depth) := by
  induction levels with
  | zero => exact fun depth env context e => .throw _
  | succ levels ih =>
    intro depth env context e
    rcases Nat.lt_or_ge depth env.options.maxDepth with h | h
    · rw [evalAt_of_lt h]
      exact (composed_step env context e).keeps hhost (ih (depth + 1))
    · rw [evalAt_of_le h]
      exact .throw _

end

end PathQuery
