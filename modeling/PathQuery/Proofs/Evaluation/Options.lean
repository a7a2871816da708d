/-
What options do.

* **`EngineOptions.Loosened`** — options that allow at least the depth of others, and are strict
  only if the others are;
* **`EvalError.IsCutOff`** — the errors of options: no more depth, and a missing name;
* **`exists_evaluate_of_loosened`** — looser options change no answer but these errors.

Design notes: closures keep the options of the engine that made them.  So the two sides differ in
the options of closures, but not in their places, and values are equal on both sides.
-/
import PathQuery.Proofs.Evaluation.Simulation.SameHost

namespace PathQuery

/-- Options that allow at least the depth of `o`, and are strict only if `o` is. -/
structure EngineOptions.Loosened (o o' : EngineOptions) : Prop where
  maxDepth : o.maxDepth ≤ o'.maxDepth
  strictVariables : o'.strictVariables = true → o.strictVariables = true

/-- Engines that differ in their options only. -/
structure Environment.Loosened (env env' : Environment) : Prop where
  globals : env.globals = env'.globals
  interceptor : env.interceptor = env'.interceptor
  options : env.options.Loosened env'.options

/-- Closures that differ in the options of their engines only. -/
structure Closure.Loosened (c c' : Closure) : Prop where
  params : c.params = c'.params
  body : c.body = c'.body
  captured : c.captured = c'.captured
  environment : c.environment.Loosened c'.environment

/-- The errors that options cause. -/
def EvalError.IsCutOff : EvalError → Prop
  | .depthExceeded _ => True
  | .missingIdentifier _ => True
  | _ => False

theorem Environment.Loosened.refl (env : Environment) : env.Loosened env :=
  ⟨rfl, rfl, Nat.le_refl _, id⟩

theorem Closure.Loosened.refl (c : Closure) : c.Loosened c := ⟨rfl, rfl, rfl, .refl _⟩

/-- Bodies of closures are evaluated with the same variables. -/
theorem Closure.Loosened.scope {c c' : Closure} (h : c.Loosened c') (args : List Value) :
    c.scope args = c'.scope args := by
  rw [Closure.scope, Closure.scope, h.params, h.captured]

/-- Evaluations side by side, the second one with looser options. -/
def loosening (σ : Type) : Simulation σ σ where
  worlds := World.Related Closure.Loosened
  scenes s s' _ := s.environment.Loosened s'.environment ∧ s.context = s'.context
  cutOff := EvalError.IsCutOff
  size_closures h := h.size
  called h hc hc' := by
    have hrel := h.closures _ _ _ hc hc'
    exact ⟨hrel.body, fun args => ⟨hrel.environment, hrel.scope args⟩⟩
  made h hs := h.push ⟨rfl, rfl, hs.2, hs.1⟩
  part hs _ _ := hs
  interceptor hs := hs.1.interceptor
  variable_get hs := by
    rw [hs.1.globals, hs.2]
    exact ⟨rfl, rfl, fun _ => rfl⟩
  variable_strict {s s' _} hs := by
    have hstrict := hs.1.options.strictVariables
    cases h : s'.environment.options.strictVariables with
    | true => exact .inl (hstrict h)
    | false =>
      cases s.environment.options.strictVariables with
      | true => exact .inr ⟨rfl, trivial⟩
      | false => exact .inl rfl
  call_get hs := by rw [hs.1.globals]
  maxDepth hs := .inr ⟨hs.1.options.maxDepth, fun _ => trivial⟩

variable {σ : Type} {host : Host σ} {env env' : Environment}

theorem evaluate_follows_of_loosened (hhost : host.PassesOn EvalError.IsCutOff)
    (h : env.Loosened env') (context : Context) (e : Expr) :
    (loosening σ).Follows (evaluate host env context e) (evaluate host env' context e) := by
  have hscenes : (loosening σ).scenes ⟨env, context⟩ ⟨env', context⟩ e := ⟨h, rfl⟩
  refine evaluate_follows (Host.follows_self rfl hhost) hscenes fun w w' hw =>
    .inr ⟨?_, fun _ => trivial⟩
  exact World.levels_le_of_related hw h.options.maxDepth fun c c' hc =>
    hc.environment.options.maxDepth

/-- Options only cut evaluations off.  If an evaluation ends in a value, or in an error that is not
one of the options, then it ends so with looser options, too, and the host has been asked the same;
the closures made meanwhile differ in their options only. -/
theorem exists_evaluate_of_loosened (hhost : host.PassesOn EvalError.IsCutOff)
    {o o' : EngineOptions} (ho : o.Loosened o') (globals : Globals) (interceptor : Option Nat)
    (context : Context) (e : Expr) {w w₁ : World (σ × List HostCall)}
    {answer : Except EvalError Value}
    (hrun : (evaluate host.logged ⟨globals, interceptor, o⟩ context e).runIn w = (answer, w₁))
    (hanswer : ∀ error, answer = .error error → ¬ error.IsCutOff) :
    ∃ w₂, (evaluate host.logged ⟨globals, interceptor, o'⟩ context e).runIn w = (answer, w₂) ∧
      w₂.log = w₁.log ∧ w₁.Related Closure.Loosened w₂ := by
  have henv : Environment.Loosened ⟨globals, interceptor, o⟩ ⟨globals, interceptor, o'⟩ :=
    ⟨rfl, rfl, ho⟩
  have hends := evaluate_follows_of_loosened hhost.logged henv context e w w
    (World.Related.refl Closure.Loosened.refl w)
  rw [hrun] at hends
  generalize (evaluate host.logged ⟨globals, interceptor, o'⟩ context e).runIn w = r at hends ⊢
  cases hends with
  | cut he w r => exact absurd he (hanswer _ rfl)
  | alike answer hw => exact ⟨_, rfl, congrArg Prod.snd hw.state.symm, hw⟩

/-- A function that is called with a closure and its argument. -/
def callOfClosure : Expr := .call "f" [.closure ["x"] (.variable "x"), .literal (.boolean true)]

theorem exists_evaluate_of_callOfClosure :
    ∃ w₁ w₂ : World (Unit × List HostCall),
      (evaluate applyingHost.logged ⟨.register .empty "f" 0, none, ⟨2, true⟩⟩ .empty
        callOfClosure).runIn ⟨((), []), #[]⟩ = (.ok (.boolean true), w₁) ∧
      (evaluate applyingHost.logged ⟨.register .empty "f" 0, none, ⟨3, false⟩⟩ .empty
        callOfClosure).runIn ⟨((), []), #[]⟩ = (.ok (.boolean true), w₂) ∧
      w₂.log = w₁.log ∧ w₁.Related Closure.Loosened w₂ := by
  have ho : EngineOptions.Loosened ⟨2, true⟩ ⟨3, false⟩ := ⟨by decide, by decide⟩
  obtain ⟨w₂, hrun, hlog, hrelated⟩ := exists_evaluate_of_loosened (passesOn_applyingHost _) ho
    (.register .empty "f" 0) none .empty callOfClosure (w := ⟨((), []), #[]⟩) rfl
    (by rintro error ⟨⟩)
  exact ⟨_, w₂, rfl, hrun, hlog, hrelated⟩

end PathQuery
