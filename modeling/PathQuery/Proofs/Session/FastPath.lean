/-
Runs of queries against runs without a store.

* **`freshRun`** — a query parsed afresh and evaluated;
* **`Session.runCompiled_eq_freshRun`** — compiling through the store comes to that;
* **`Session.outcome_eq_nameRun`** — a bare name is evaluated without taking a level;
* **`Session.outcome_eq_freshRun`** — which makes no difference if the host answers for it without
  calling a closure;
* **`Session.outcome_ne_freshRun_iff`** — with no levels at all it makes a difference exactly for
  the names that are resolved or that cannot be resolved.

Design notes: an outcome is an answer and the world behind it.  The level of a bare name shows only
in how deep a closure that the host calls meanwhile may go.
-/
import PathQuery.Proofs.Evaluation.Names
import PathQuery.Proofs.Session.BareName
import PathQuery.Proofs.Session.Store

namespace PathQuery

variable {σ : Type}

/-- The outcome of an evaluation as that of a query. -/
def answered (outcome : Except EvalError Value × World σ) : Except QueryError Value × World σ :=
  (outcome.1.mapError .eval, outcome.2)

/-- A query parsed afresh and evaluated, without a store. -/
def freshRun (host : Host σ) (env : Environment) (context : Context) (query : String)
    (w : World σ) : Except QueryError Value × World σ :=
  match Expr.parse query with
  | .error e => (.error (.parse e), w)
  | .ok tree => answered ((evaluate host env context tree).runIn w)

/-- A name evaluated as a variable that takes no level. -/
def nameRun (host : Host σ) (env : Environment) (context : Context) (name : String)
    (w : World σ) : Except QueryError Value × World σ :=
  answered ((atTop host env fun below => step host below env context (.variable name)).runIn w)

/-! ### Names as variables -/

section

variable {host : Host σ} {env : Environment} {context : Context}

/-- A variable is the name that it resolves, or unknown. -/
theorem runIn_step_variable (below : Evaluator σ) (name : String) (w : World σ) :
    (step host below env context (.variable name)).runIn w =
      match (resolve host below name context env.globals).runIn w with
      | (.ok (some v), w') => (.ok v, w')
      | (.ok none, w') =>
        (if env.options.strictVariables then .error (.missingIdentifier name) else .ok .null, w')
      | (.error e, w') => (.error e, w') := by
  rw [step, Eval.runIn_bind]
  rcases (resolve host below name context env.globals).runIn w with ⟨answer, w'⟩
  cases answer with
  | error e => rfl
  | ok found =>
    cases found with
    | some v => rfl
    | none =>
      simp only []
      split <;> rfl

/-- A variable whose name two levels resolve alike has the same outcome at both. -/
theorem runIn_step_variable_congr {below below' : Evaluator σ} {name : String} {w : World σ}
    (h : (resolve host below name context env.globals).runIn w =
      (resolve host below' name context env.globals).runIn w) :
    (step host below env context (.variable name)).runIn w =
      (step host below' env context (.variable name)).runIn w := by
  rw [runIn_step_variable, runIn_step_variable, h]

theorem freshRun_of_isBareName {q : String} (hb : isBareName q = true) (w : World σ) :
    freshRun host env context q w =
      answered ((evaluate host env context (.variable q)).runIn w) := by
  rw [freshRun, parse_of_isBareName hb]

theorem runIn_nameRun (name : String) (w : World σ) :
    nameRun host env context name w = answered
      ((step host (evalAt host (w.levels env) 0) env context (.variable name)).runIn w) := by
  rw [nameRun, runIn_atTop]

/-- The level of a variable does not show if the levels below it resolve its name alike. -/
theorem nameRun_eq_freshRun {q : String} (hb : isBareName q = true)
    (henv : 0 < env.options.maxDepth) {w : World σ}
    (h : ∀ below below' : Evaluator σ, (resolve host below q context env.globals).runIn w =
      (resolve host below' q context env.globals).runIn w) :
    nameRun host env context q w = freshRun host env context q w := by
  rw [freshRun_of_isBareName hb, runIn_evaluate_of_pos henv, runIn_nameRun]
  exact congrArg answered (runIn_step_variable_congr
    (h (evalAt host (w.levels env) 0) (evalAt host (w.levels env - 1) 1)))

end

namespace Session

variable {s : Session σ} (host : Host σ) (env : Environment) (context : Context) {q : String}

/-- The answer to a query and the world behind it. -/
def outcome (s : Session σ) (host : Host σ) (env : Environment) (context : Context)
    (query : String) : Except QueryError Value × World σ :=
  ((s.run host env context query).1, (s.run host env context query).2.world)

/-! ### Compiled queries -/

theorem runCompiled_of_error (hs : s.cache.IsSound) {e : ParseError}
    (h : Expr.parse q = .error e) :
    s.runCompiled host env context q = (.error (.parse e), s) := by
  rw [runCompiled, QueryCache.compile_of_parse_eq_error hs h]

theorem exists_runCompiled (hs : s.cache.IsSound) {tree : Expr} (h : Expr.parse q = .ok tree) :
    ∃ cache : QueryCache, cache.IsSound ∧ s.runCompiled host env context q =
      ((freshRun host env context q s.world).1,
        ⟨cache, (freshRun host env context q s.world).2⟩) := by
  obtain ⟨stored, cache, hcompile, rfl, hsound⟩ := QueryCache.exists_compile hs h
  refine ⟨cache, hsound, ?_⟩
  rw [runCompiled, hcompile, freshRun, h]
  rfl

/-- Through a sound store a query comes to what it comes to without. -/
theorem runCompiled_eq_freshRun (hs : s.cache.IsSound) (q : String) :
    ((s.runCompiled host env context q).1, (s.runCompiled host env context q).2.world) =
      freshRun host env context q s.world := by
  cases h : Expr.parse q with
  | error e => rw [runCompiled_of_error host env context hs h, freshRun, h]
  | ok tree =>
    obtain ⟨cache, -, hrun⟩ := exists_runCompiled host env context hs h
    rw [hrun]

theorem isSound_runCompiled (hs : s.cache.IsSound) (q : String) :
    (s.runCompiled host env context q).2.cache.IsSound := by
  cases h : Expr.parse q with
  | error e => rwa [runCompiled_of_error host env context hs h]
  | ok tree =>
    obtain ⟨cache, hcache, hrun⟩ := exists_runCompiled host env context hs h
    rwa [hrun]

/-! ### The two ways of a run -/

variable {host env context}

theorem run_of_not_isBareName (hb : isBareName q = false) :
    s.run host env context q = s.runCompiled host env context q := by
  rw [run, hb]
  rfl

/-- A bare name that is resolved, or that cannot be resolved, needs no store. -/
theorem run_of_resolved (hb : isBareName q = true) {v : Value} {w : World σ}
    (h : (resolveName host env q context).runIn s.world = (.ok (some v), w)) :
    s.run host env context q = (.ok v, { s with world := w }) := by
  rw [run, if_pos hb, h]

theorem run_of_unresolved (hb : isBareName q = true) {e : EvalError} {w : World σ}
    (h : (resolveName host env q context).runIn s.world = (.error e, w)) :
    s.run host env context q = (.error (.eval e), { s with world := w }) := by
  rw [run, if_pos hb, h]

/-- An unknown name is compiled like any other query. -/
theorem run_of_unknown (hb : isBareName q = true) {w : World σ}
    (h : (resolveName host env q context).runIn s.world = (.ok none, w)) :
    s.run host env context q = s.runCompiled host env context q := by
  -- A name that turns out to be unknown has left the world as it was.
  have hsame : (resolveName host env q context).runIn s.world = (.ok none, s.world) := by
    rw [runIn_resolveName] at h ⊢
    exact resolve_eq_none h _
  rw [run, if_pos hb, hsame]

theorem outcome_eq_freshRun_of_runCompiled (hs : s.cache.IsSound)
    (h : s.run host env context q = s.runCompiled host env context q) :
    s.outcome host env context q = freshRun host env context q s.world := by
  rw [outcome, h]
  exact runCompiled_eq_freshRun host env context hs q

theorem isSound_run (hs : s.cache.IsSound) (q : String) :
    (s.run host env context q).2.cache.IsSound := by
  cases hb : isBareName q with
  | false =>
    rw [run_of_not_isBareName hb]
    exact isSound_runCompiled host env context hs q
  | true =>
    rcases hr : (resolveName host env q context).runIn s.world with ⟨answer, w⟩
    cases answer with
    | error e => rwa [run_of_unresolved hb hr]
    | ok found =>
      cases found with
      | some v => rwa [run_of_resolved hb hr]
      | none =>
        rw [run_of_unknown hb hr]
        exact isSound_runCompiled host env context hs q

/-- A bare name is evaluated as a variable that takes no level. -/
theorem outcome_eq_nameRun (hs : s.cache.IsSound) (hb : isBareName q = true)
    (henv : 0 < env.options.maxDepth) :
    s.outcome host env context q = nameRun host env context q s.world := by
  rcases hr : (resolveName host env q context).runIn s.world with ⟨answer, w⟩
  cases answer with
  | error e =>
    rw [outcome, run_of_unresolved hb hr, runIn_nameRun, runIn_step_variable, ← runIn_resolveName,
      hr]
    rfl
  | ok found =>
    cases found with
    | some v =>
      rw [outcome, run_of_resolved hb hr, runIn_nameRun, runIn_step_variable, ← runIn_resolveName,
        hr]
      rfl
    | none =>
      rw [outcome_eq_freshRun_of_runCompiled hs (run_of_unknown hb hr)]
      rw [runIn_resolveName] at hr
      -- An unknown name is unknown at every level, so taking one makes no difference.
      refine (nameRun_eq_freshRun hb henv fun below below' => ?_).symm
      rw [resolve_eq_none hr below, resolve_eq_none hr below']

/-- The store and the way of bare names do not show, if the host calls no closure to answer for a
bare name. -/
theorem outcome_eq_freshRun (hs : s.cache.IsSound) (henv : 0 < env.options.maxDepth)
    (hdirect : isBareName q = true →
      host.AnswersDirectly q context env.globals s.world.state) :
    s.outcome host env context q = freshRun host env context q s.world := by
  cases hb : isBareName q with
  | false => exact outcome_eq_freshRun_of_runCompiled hs (run_of_not_isBareName hb)
  | true =>
    rw [outcome_eq_nameRun hs hb henv]
    exact nameRun_eq_freshRun hb henv fun below below' => resolve_congr (hdirect hb) below below'

/-- A query that is not parsed, and a bare name that needs no store, leave the store as it is. -/
theorem cache_run_of_unparsed (hs : s.cache.IsSound) {e : ParseError}
    (h : Expr.parse q = .error e) : (s.run host env context q).2.cache = s.cache := by
  have hb : isBareName q = false := by
    by_contra hb
    rw [parse_of_isBareName (by simpa using hb)] at h
    exact absurd h (by simp)
  rw [run_of_not_isBareName hb, runCompiled_of_error host env context hs h]

theorem cache_run_of_known (hb : isBareName q = true)
    (h : ((resolveName host env q context).runIn s.world).1 ≠ .ok none) :
    (s.run host env context q).2.cache = s.cache := by
  rcases hr : (resolveName host env q context).runIn s.world with ⟨answer, w⟩
  cases answer with
  | error e => rw [run_of_unresolved hb hr]
  | ok found =>
    cases found with
    | some v => rw [run_of_resolved hb hr]
    | none => rw [hr] at h; exact absurd rfl h

end Session

/-! ### No levels at all -/

section

variable {s : Session (σ × List HostCall)} {host : Host σ} {env : Environment} {context : Context}
  {q : String}

/-- Where no levels are allowed, only bare names that are known, or that cannot be resolved, come to
something else than an error of the limit without any call of the host. -/
theorem Session.outcome_ne_freshRun_iff (hs : s.cache.IsSound) (henv : env.options.maxDepth = 0) :
    s.outcome host.logged env context q ≠ freshRun host.logged env context q s.world ↔
      isBareName q = true ∧
        ((resolveName host.logged env q context).runIn s.world).1 ≠ .ok none := by
  cases hb : isBareName q with
  | false =>
    rw [outcome_eq_freshRun_of_runCompiled hs (run_of_not_isBareName hb)]
    simp
  | true =>
    -- The fresh run ends at the limit before anything is asked.
    have hfresh : freshRun host.logged env context q s.world =
        (.error (.eval (.depthExceeded 0)), s.world) := by
      rw [freshRun_of_isBareName hb, runIn_evaluate_of_zero henv]
      rfl
    rcases hr : (resolveName host.logged env q context).runIn s.world with ⟨answer, w⟩
    cases answer with
    | error e =>
      -- A failed request is in the log, and the fresh run has asked nothing.
      have hlog : w.log ≠ s.world.log := by
        rw [runIn_resolveName] at hr
        exact log_ne_of_resolve_eq_error (evalAt_keeps host.keeps_logged _ 0) hr
      have hne : s.outcome host.logged env context q ≠
          freshRun host.logged env context q s.world := by
        intro heq
        rw [hfresh, outcome, run_of_unresolved hb hr] at heq
        exact hlog (congrArg World.log (Prod.mk.inj heq).2)
      simp [hne]
    | ok found =>
      cases found with
      | some v =>
        rw [hfresh, outcome, run_of_resolved hb hr]
        simp
      | none =>
        rw [outcome_eq_freshRun_of_runCompiled hs (run_of_unknown hb hr)]
        simp

end

end PathQuery
