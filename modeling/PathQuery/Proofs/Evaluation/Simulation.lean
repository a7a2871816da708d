/-
Two evaluations side by side.

* **`Simulation`** — which worlds and which scenes are alike, and which errors cut the first of two
  evaluations off;
* **`Simulation.Follows`** — from worlds that are alike two evaluations have the same answer and end
  in worlds that are alike, unless the first one is cut off;
* **`HostRun.Follows`, `Host.Follows`** — the same for what hosts do;
* **`request_follows`** — requests follow each other if hosts and the levels below do.

Design notes: values are equal on both sides, since a closure is named by its place in the table of
the world; what differs is in the worlds and scenes.
-/
import PathQuery.Proofs.Evaluation.Runs
import PathQuery.Proofs.Expr.Parts

namespace PathQuery

variable {σ τ : Type}

/-! ### Scenes -/

/-- What the value of an expression depends on besides the world. -/
structure Scene where
  environment : Environment
  context : Context

/-- Where the body of a closure is evaluated. -/
def Closure.scene (c : Closure) (args : List Value) : Scene := ⟨c.environment, c.scope args⟩

/-- Two evaluations side by side: the worlds and the scenes in which they are alike, and the errors
that end the comparison.  Scenes are alike for an expression. -/
structure Simulation (σ τ : Type) where
  worlds : World σ → World τ → Prop
  scenes : Scene → Scene → Expr → Prop
  cutOff : EvalError → Prop
  /-- Closures have the same places. -/
  size_closures : ∀ {w w'}, worlds w w' → w.closures.size = w'.closures.size
  /-- Closures at one place are called alike. -/
  called : ∀ {w w'} {i : Nat} {c c' : Closure}, worlds w w' → w.closures[i]? = some c →
    w'.closures[i]? = some c' → c.body = c'.body ∧
      ∀ args, scenes (c.scene args) (c'.scene args) c.body
  /-- Closures that are made in scenes that are alike may be kept. -/
  made : ∀ {w w' s s' params body}, worlds w w' → scenes s s' (.closure params body) →
    worlds { w with closures := w.closures.push ⟨params, body, s.context, s.environment⟩ }
      { w' with closures := w'.closures.push ⟨params, body, s'.context, s'.environment⟩ }
  part : ∀ {s s' e}, scenes s s' e → ∀ p ∈ e.parts, scenes s s' p
  interceptor : ∀ {s s' e}, scenes s s' e → s.environment.interceptor = s'.environment.interceptor
  variable_get : ∀ {s s' name}, scenes s s' (.variable name) →
    s.context.get? name = s'.context.get? name ∧
      s.environment.globals.get? name = s'.environment.globals.get? name ∧
      (name = contextAlias → s.context.toFields = s'.context.toFields)
  variable_strict : ∀ {s s' name}, scenes s s' (.variable name) →
    s.environment.options.strictVariables = s'.environment.options.strictVariables ∨
      s.environment.options.strictVariables = true ∧ cutOff (.missingIdentifier name)
  call_get : ∀ {s s' name args}, scenes s s' (.call name args) →
    s.environment.globals.get? name = s'.environment.globals.get? name
  maxDepth : ∀ {s s' e}, scenes s s' e →
    s.environment.options.maxDepth = s'.environment.options.maxDepth ∨
      s.environment.options.maxDepth ≤ s'.environment.options.maxDepth ∧
        ∀ n, cutOff (.depthExceeded n)

/-- How two evaluations end: alike, or with the first one cut off. -/
inductive Simulation.Ends (S : Simulation σ τ) {α : Type} :
    Except EvalError α × World σ → Except EvalError α × World τ → Prop where
  | alike (answer : Except EvalError α) {w : World σ} {w' : World τ} (h : S.worlds w w') :
      S.Ends (answer, w) (answer, w')
  | cut {e : EvalError} (h : S.cutOff e) (w : World σ) (r : Except EvalError α × World τ) :
      S.Ends (.error e, w) r

/-- Where nothing cuts off, answers are the same. -/
theorem Simulation.Ends.eq_of_forall_not {S : Simulation σ τ} (hS : ∀ e, ¬ S.cutOff e) {α : Type}
    {r : Except EvalError α × World σ} {r' : Except EvalError α × World τ} (h : S.Ends r r') :
    r.1 = r'.1 ∧ S.worlds r.2 r'.2 := by
  cases h with
  | alike answer h => exact ⟨rfl, h⟩
  | cut h w r => exact absurd h (hS _)

/-- From worlds that are alike, two evaluations end alike. -/
def Simulation.Follows (S : Simulation σ τ) {α : Type} (m : Eval σ α) (m' : Eval τ α) : Prop :=
  ∀ w w', S.worlds w w' → S.Ends (m.runIn w) (m'.runIn w')

/-- In scenes that are alike, two evaluators follow each other. -/
def Simulation.Evaluators (S : Simulation σ τ) (below : Evaluator σ) (below' : Evaluator τ) :
    Prop :=
  ∀ {s s' : Scene} {e : Expr}, S.scenes s s' e →
    S.Follows (below s.environment s.context e) (below' s'.environment s'.context e)

/-! ### Hosts -/

/-- The course of a request ends in an error that satisfies `p`, whatever closures answer. -/
def HostRun.EndsIn (p : EvalError → Prop) : HostRun σ → Prop
  | .done (.error e) _ => p e
  | .done (.ok _) _ => False
  | .invoke _ _ _ resume => ∀ answer s, (resume answer s).EndsIn p

/-- Two courses call the same closures and have the same answer, as long as the answers of the
closures are the same; an error that cuts off is not caught. -/
inductive HostRun.Follows (S : Simulation σ τ) :
    World σ → World τ → HostRun σ → HostRun τ → Prop where
  | done {w w'} (answer : Except EvalError Value) {state state'}
      (h : S.worlds { w with state := state } { w' with state := state' }) :
      Follows S w w' (.done answer state) (.done answer state')
  | invoke {w w'} (closure : Nat) (args : List Value) {state state' resume resume'}
      (h : S.worlds { w with state := state } { w' with state := state' })
      (cut : ∀ e s, S.cutOff e → (resume (.error e) s).EndsIn S.cutOff)
      (next : ∀ answer v v', S.worlds v v' → (∀ e, answer = .error e → ¬ S.cutOff e) →
        Follows S v v' (resume answer v.state) (resume' answer v'.state)) :
      Follows S w w' (.invoke closure args state resume) (.invoke closure args state' resume')

/-- Two requests, made in worlds that are alike. -/
def Simulation.Requests (S : Simulation σ τ) (run : σ → HostRun σ) (run' : τ → HostRun τ) : Prop :=
  ∀ w w', S.worlds w w' → HostRun.Follows S w w' (run w.state) (run' w'.state)

/-- What hosts do to call functions and to compute lazy values. -/
structure Host.Computes (S : Simulation σ τ) (host : Host σ) (host' : Host τ) : Prop where
  call : ∀ function args, S.Requests (host.call function args) (host'.call function args)
  force : ∀ lazy, S.Requests (host.force lazy) (host'.force lazy)

/-- All that hosts do, with what they do for member steps. -/
structure Host.Follows (S : Simulation σ τ) (host : Host σ) (host' : Host τ) : Prop extends
    Host.Computes S host host' where
  intercept : ∀ interceptor v,
    S.Requests (host.intercept interceptor v) (host'.intercept interceptor v)
  hasMethod : ∀ object name, S.Follows (Eval.onState (host.hasMethod object name))
    (Eval.onState (host'.hasMethod object name))
  callMethod : ∀ object name args,
    S.Requests (host.callMethod object name args) (host'.callMethod object name args)
  property : ∀ object name, S.Follows (Eval.onState (host.property object name))
    (Eval.onState (host'.property object name))

namespace Simulation.Follows

variable {S : Simulation σ τ} {α β : Type}

/-! ### Steps of evaluations -/

theorem pure (a : α) : S.Follows (Pure.pure a) (Pure.pure a) := fun _ _ h => .alike _ h

theorem throw (e : EvalError) : S.Follows (MonadExcept.throw e : Eval σ α) (MonadExcept.throw e) :=
  fun _ _ h => .alike _ h

theorem throw_of_cutOff {e : EvalError} (h : S.cutOff e) (m : Eval τ α) :
    S.Follows (MonadExcept.throw e) m := fun w _ _ => .cut h w _

theorem bind {m : Eval σ α} {m' : Eval τ α} {f : α → Eval σ β} {f' : α → Eval τ β}
    (hm : S.Follows m m') (hf : ∀ a, S.Follows (f a) (f' a)) :
    S.Follows (m >>= f) (m' >>= f') := by
  intro w w' hw
  have hfirst := hm w w' hw
  rw [Eval.runIn_bind, Eval.runIn_bind]
  generalize m.runIn w = r, m'.runIn w' = r' at hfirst
  cases hfirst with
  | cut h w r => exact .cut h w _
  | alike answer h =>
    cases answer with
    | ok a => exact hf a _ _ h
    | error e => exact .alike _ h

theorem mapM {f : α → Eval σ β} {f' : α → Eval τ β} {as : List α}
    (hf : ∀ a ∈ as, S.Follows (f a) (f' a)) : S.Follows (as.mapM f) (as.mapM f') := by
  induction as with
  | nil => exact .pure _
  | cons a as ih =>
    rw [List.forall_mem_cons] at hf
    rw [List.mapM_cons, List.mapM_cons]
    exact hf.1.bind fun _ => (ih hf.2).bind fun _ => .pure _

theorem anyM {f : α → Eval σ Bool} {f' : α → Eval τ Bool} (hf : ∀ a, S.Follows (f a) (f' a))
    (as : List α) : S.Follows (as.anyM f) (as.anyM f') := by
  induction as with
  | nil => exact .pure _
  | cons a as ih =>
    rw [List.anyM, List.anyM]
    refine (hf a).bind fun b => ?_
    cases b with
    | true => exact .pure _
    | false => exact ih

theorem allM {f : α → Eval σ Bool} {f' : α → Eval τ Bool} (hf : ∀ a, S.Follows (f a) (f' a))
    (as : List α) : S.Follows (as.allM f) (as.allM f') := by
  induction as with
  | nil => exact .pure _
  | cons a as ih =>
    rw [List.allM, List.allM]
    refine (hf a).bind fun b => ?_
    cases b with
    | true => exact ih
    | false => exact .pure _

theorem ofExcept : (r : Except EvalError α) → S.Follows (Eval.ofExcept r) (Eval.ofExcept r)
  | .ok a => .pure a
  | .error e => .throw e

theorem newClosure {s s' : Scene} {params : List String} {body : Expr}
    (h : S.scenes s s' (.closure params body)) :
    S.Follows (Eval.newClosure ⟨params, body, s.context, s.environment⟩)
      (Eval.newClosure ⟨params, body, s'.context, s'.environment⟩) := by
  intro w w' hw
  have hmade := S.made hw h
  change S.Ends (.ok (FunctionRef.closure w.closures.size), _)
    (.ok (FunctionRef.closure w'.closures.size), _)
  rw [S.size_closures hw]
  exact .alike _ hmade

end Simulation.Follows

section

variable {S : Simulation σ τ} {host : Host σ} {host' : Host τ} {below : Evaluator σ}
  {below' : Evaluator τ}

/-! ### Requests -/

/-- A course that ends in an error does so in every world. -/
theorem exists_runIn_ofRun_of_endsIn {p : EvalError → Prop}
    {invoke : Nat → List Value → Eval σ Value} {run : HostRun σ} (h : run.EndsIn p) (w : World σ) :
    ∃ e w', (Eval.ofRun invoke run).runIn w = (.error e, w') ∧ p e := by
  induction run generalizing w with
  | done answer state =>
    cases answer with
    | ok v => exact h.elim
    | error e => exact ⟨e, _, Eval.runIn_ofRun_done _ _ _, h⟩
  | invoke closure args state resume ih =>
    rw [Eval.runIn_ofRun_invoke]
    exact ih _ _ (h _ _) _

theorem ofRun_follows {invoke : Nat → List Value → Eval σ Value}
    {invoke' : Nat → List Value → Eval τ Value}
    (hinvoke : ∀ closure args, S.Follows (invoke closure args) (invoke' closure args))
    {w : World σ} {w' : World τ} {run : HostRun σ} {run' : HostRun τ}
    (h : HostRun.Follows S w w' run run') :
    S.Ends ((Eval.ofRun invoke run).runIn w) ((Eval.ofRun invoke' run').runIn w') := by
  induction h with
  | done answer h =>
    rw [Eval.runIn_ofRun_done, Eval.runIn_ofRun_done]
    exact .alike _ h
  | @invoke w w' closure args state state' resume resume' h cut next ih =>
    have hclosure := hinvoke closure args _ _ h
    rw [Eval.runIn_ofRun_invoke, Eval.runIn_ofRun_invoke]
    generalize (invoke closure args).runIn _ = r, (invoke' closure args).runIn _ = r' at hclosure
    -- What cuts the closure off cuts the request off, now or where the first side is at its end.
    have hcut : ∀ e v, S.cutOff e → S.Ends ((Eval.ofRun invoke (resume (.error e) v.state)).runIn v)
        ((Eval.ofRun invoke' (resume' r'.1 r'.2.state)).runIn r'.2) := by
      intro e v he
      obtain ⟨e', v', hrun, he'⟩ : ∃ e' v',
          (Eval.ofRun invoke (resume (.error e) v.state)).runIn v = (.error e', v') ∧
            S.cutOff e' := exists_runIn_ofRun_of_endsIn (cut e v.state he) v
      rw [hrun]
      exact .cut he' v' _
    cases hclosure with
    | cut he v r => exact hcut _ v he
    | alike answer hv =>
      by_cases he : ∃ e, answer = .error e ∧ S.cutOff e
      · obtain ⟨e, rfl, he⟩ := he
        exact hcut e _ he
      · exact ih answer _ _ hv fun e h hc => he ⟨e, h, hc⟩

theorem callClosure_follows (hbelow : S.Evaluators below below') (index : Nat)
    (args : List Value) :
    S.Follows (callClosure below index args) (callClosure below' index args) := by
  intro w w' hw
  have hsize := S.size_closures hw
  rw [callClosure, callClosure, Eval.runIn_bind_of_ok (Eval.runIn_get w),
    Eval.runIn_bind_of_ok (Eval.runIn_get w')]
  cases h : w.closures[index]? with
  | none =>
    have h' : w'.closures[index]? = none := by
      rw [Array.getElem?_eq_none_iff] at h ⊢
      omega
    rw [h']
    exact .alike _ hw
  | some c =>
    obtain ⟨hlt, -⟩ := Array.getElem?_eq_some_iff.1 h
    have h' : w'.closures[index]? = some w'.closures[index] :=
      Array.getElem?_eq_getElem (hsize ▸ hlt)
    obtain ⟨hbody, hscene⟩ := S.called hw h h'
    rw [h']
    simp only []
    rw [← hbody]
    exact hbelow (hscene args) w w' hw

theorem request_follows (hbelow : S.Evaluators below below') {run : σ → HostRun σ}
    {run' : τ → HostRun τ} (h : S.Requests run run') :
    S.Follows (request below run) (request below' run') := fun w w' hw =>
  ofRun_follows (callClosure_follows hbelow) (h w w' hw)

theorem callFunction_follows (hhost : Host.Computes S host host')
    (hbelow : S.Evaluators below below') (f : FunctionRef) (args : List Value) :
    S.Follows (callFunction host below f args) (callFunction host' below' f args) := by
  cases f with
  | host id => exact request_follows hbelow (hhost.call id args)
  | closure index => exact callClosure_follows hbelow index args

theorem force_follows (hhost : Host.Computes S host host') (hbelow : S.Evaluators below below')
    (v : Value) : S.Follows (force host below v) (force host' below' v) := by
  cases v with
  | deferred lazy => exact request_follows hbelow (hhost.force lazy)
  | _ => exact .pure _

theorem resolve_follows (hhost : Host.Computes S host host') (hbelow : S.Evaluators below below')
    {s s' : Scene} {name : String} (h : S.scenes s s' (.variable name)) :
    S.Follows (resolve host below name s.context s.environment.globals)
      (resolve host' below' name s'.context s'.environment.globals) := by
  obtain ⟨hvariable, hglobal, hthis⟩ := S.variable_get h
  rw [resolve, resolve, ← hvariable, ← hglobal]
  split
  · exact (force_follows hhost hbelow _).bind fun _ => .pure _
  · split
    · exact (request_follows hbelow (hhost.call _ [])).bind fun _ => .pure _
    · -- Only the name of all variables asks what the others are.
      by_cases hname : name = contextAlias
      · rw [if_pos hname, if_pos hname, hthis hname]
        exact .pure _
      · rw [if_neg hname, if_neg hname]
        exact .pure _

end

end PathQuery
