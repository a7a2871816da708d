/-
Null-safe chains.

* **`forcedValue`** — the value of an expression as the object of a member step;
* **`runIn_step_behind_of_null`** — a null-safe step on null comes to null and asks nothing;
* **`memberObject_chain_of_null`** — so does a chain of them;
* **`runIn_evaluate_chain_of_plain`** — a plain step on null fails, and all steps behind it do;
* **`FailsElsewhere`** — a step fails, but not since its object is null;
* **`evaluate_nullSafe_chain`** — member steps on null come to null, or fail at the first one that is
  not null-safe;
* **`exists_nullSafe_chain_broken`** — as one behind parentheses may not be.

Design notes: a chain behind a part that comes to null is evaluated from its last step inwards, which
is at a greater depth the longer the chain is.  Only below the limit does that not matter.
-/
import Mathlib.Data.List.Induction
import PathQuery.Proofs.Derivation.Chain
import PathQuery.Proofs.Evaluation.Limit
import PathQuery.Proofs.Expr.Derivation
import PathQuery.Proofs.Parser.Query

namespace PathQuery

variable {σ : Type} {host : Host σ} {below : Evaluator σ} {env : Environment} {context : Context}
  {w w' : World σ}

/-! ### Member steps -/

/-- The value of an expression, forced, which is what a member step takes for its object. -/
def forcedValue (host : Host σ) (env : Environment) (context : Context) (e : Expr) :
    Eval σ Value :=
  atTop host env fun below => memberObject host below env context e

/-- The arguments of a step, if it has some. -/
def evalArguments (below : Evaluator σ) (env : Environment) (context : Context) :
    Option (List Expr) → Eval σ (Option (List Value))
  | none => return none
  | some args => return some (← args.mapM (below env context))

/-- The two kinds of member steps at once. -/
theorem step_behind (object : Expr) (s : MemberStep) :
    step host below env context (object.behind s) = (do
      let target ← memberObject host below env context object
      if s.nullSafe && target.isNull then return .null
      let args ← evalArguments below env context s.arguments
      let target ← intercept host below env target
      access host below (select host below env) target s.name args) := by
  rcases s with ⟨name, _ | args, nullSafe⟩
  · rfl
  · show step host below env context (.memberCall object name args nullSafe) = _
    rw [step]
    simp only [evalArguments, bind_assoc, pure_bind]

/-- A null-safe step on null comes to null and leaves the world as it is. -/
theorem runIn_step_behind_of_null {object : Expr} {s : MemberStep} (hs : s.nullSafe = true)
    (h : (memberObject host below env context object).runIn w = (.ok .null, w')) :
    (step host below env context (object.behind s)).runIn w = (.ok .null, w') := by
  rw [step_behind, Eval.runIn_bind_of_ok h, hs]
  rfl

/-- So does a chain of null-safe steps. -/
theorem memberObject_chain_of_null {object : Expr} {steps : List MemberStep}
    (hsteps : ∀ s ∈ steps, s.nullSafe = true)
    (h : (memberObject host below env context object).runIn w = (.ok .null, w')) :
    (memberObject host (above host below steps.length) env context (object.chain steps)).runIn w =
      (.ok .null, w') := by
  induction steps using List.reverseRecOn with
  | nil => exact h
  | append_singleton steps s ih =>
    have hs : s.nullSafe = true := hsteps s (by simp)
    have hbefore := ih fun s' hs' => hsteps s' (List.mem_append_left _ hs')
    have hstep := runIn_step_behind_of_null hs hbefore
    rw [List.length_append, List.length_singleton, Expr.chain_concat, memberObject, above,
      Eval.runIn_bind_of_ok hstep]
    rfl

/-- Below the limit a whole chain of null-safe steps comes to null if the object before it does, in
the world in which that one ends. -/
theorem runIn_evaluate_chain_of_null {object : Expr} {steps : List MemberStep} (hne : steps ≠ [])
    (hsteps : ∀ s ∈ steps, s.nullSafe = true)
    (h : (forcedValue host env context object).runIn w = (.ok .null, w'))
    (hlimit : StaysBelowLimit host env context (object.chain steps) w) :
    (evaluate host env context (object.chain steps)).runIn w = (.ok .null, w') := by
  rw [forcedValue, runIn_atTop] at h
  rw [runIn_evaluate_eq_above hlimit steps.length]
  -- The last step finds null, since the chain in front of it comes to null.
  obtain ⟨before, s, rfl⟩ : ∃ before s, steps = before ++ [s] :=
    ⟨steps.dropLast, steps.getLast hne, (List.dropLast_concat_getLast hne).symm⟩
  have hbefore := memberObject_chain_of_null
    (fun s' hs' => hsteps s' (List.mem_append_left _ hs')) h
  rw [List.length_append, List.length_singleton, Expr.chain_concat, above]
  exact runIn_step_behind_of_null (hsteps s (by simp)) hbefore

/-! ### Failures -/

/-- A plain step on null fails behind its arguments, if no interceptor answers something else. -/
theorem runIn_step_behind_of_plain {object : Expr} {s : MemberStep} (hs : s.nullSafe = false)
    (henv : env.interceptor = none)
    (h : (memberObject host below env context object).runIn w = (.ok .null, w')) :
    (step host below env context (object.behind s)).runIn w = (do
      let _ ← evalArguments below env context s.arguments
      throw (.invalidMemberTarget s.name "null") : Eval σ Value).runIn w' := by
  rw [step_behind, Eval.runIn_bind_of_ok h, hs]
  simp only [intercept, henv, pure_bind]
  rfl

/-- What fails in front of a chain of steps fails with them. -/
theorem runIn_above_chain_of_error {object : Expr} {err : EvalError}
    (h : (step host below env context object).runIn w = (.error err, w'))
    (steps : List MemberStep) :
    (above host below (steps.length + 1) env context (object.chain steps)).runIn w =
      (.error err, w') := by
  induction steps using List.reverseRecOn with
  | nil => exact h
  | append_singleton steps s ih =>
    have hobject : (memberObject host (above host below (steps.length + 1)) env context
        (object.chain steps)).runIn w = (.error err, w') := by
      rw [memberObject, Eval.runIn_bind, ih]
    rw [List.length_append, List.length_singleton, Expr.chain_concat, above, step_behind,
      Eval.runIn_bind, hobject]

/-- Below the limit a chain with a plain step on null fails behind the arguments of that step, which
null-safe steps may stand before and any others behind. -/
theorem runIn_evaluate_chain_of_plain {object : Expr} {safe later : List MemberStep}
    {s : MemberStep} (hsafe : ∀ s ∈ safe, s.nullSafe = true) (hs : s.nullSafe = false)
    (henv : env.interceptor = none)
    (h : (forcedValue host env context object).runIn w = (.ok .null, w'))
    (hlimit : StaysBelowLimit host env context (object.chain (safe ++ s :: later)) w) :
    (evaluate host env context (object.chain (safe ++ s :: later))).runIn w = (do
      let _ ← evalArguments (above host (evalAt host (w.levels env) 0) safe.length) env context
        s.arguments
      throw (.invalidMemberTarget s.name "null") : Eval σ Value).runIn w' := by
  rw [forcedValue, runIn_atTop] at h
  have hstep := runIn_step_behind_of_plain hs henv (memberObject_chain_of_null hsafe h)
  rw [← Expr.chain_concat] at hstep
  -- Either the arguments fail or the step does.
  obtain ⟨err, w₁, hrun⟩ : ∃ err w₁, (do
      let _ ← evalArguments (above host (evalAt host (w.levels env) 0) safe.length) env context
        s.arguments
      throw (.invalidMemberTarget s.name "null") : Eval σ Value).runIn w' = (.error err, w₁) := by
    rw [Eval.runIn_bind]
    split <;> exact ⟨_, _, rfl⟩
  rw [hrun] at hstep ⊢
  rw [runIn_evaluate_eq_above hlimit (later.length + 1 + safe.length), ← above_above,
    List.append_cons, Expr.chain_append]
  exact runIn_above_chain_of_error hstep later

/-- A step fails, but not because its object is null: its object or its arguments do, or its member
of an object that is not null. -/
inductive FailsElsewhere (host : Host σ) (below : Evaluator σ) (env : Environment)
    (context : Context) (object : Expr) (s : MemberStep) (w : World σ) (err : EvalError)
    (w' : World σ) : Prop where
  | object (h : (memberObject host below env context object).runIn w = (.error err, w'))
  | arguments {target : Value} {w₁ : World σ}
      (hobject : (memberObject host below env context object).runIn w = (.ok target, w₁))
      (hne : target ≠ .null)
      (h : (evalArguments below env context s.arguments).runIn w₁ = (.error err, w'))
  | member {target : Value} {args : Option (List Value)} {w₁ w₂ : World σ}
      (hobject : (memberObject host below env context object).runIn w = (.ok target, w₁))
      (hne : target ≠ .null)
      (hargs : (evalArguments below env context s.arguments).runIn w₁ = (.ok args, w₂))
      (h : (access host below (select host below env) target s.name args).runIn w₂ =
        (.error err, w'))

/-- Without an interceptor a null-safe step does not fail on null. -/
theorem failsElsewhere_of_nullSafe {object : Expr} {s : MemberStep} (hs : s.nullSafe = true)
    (henv : env.interceptor = none) {err : EvalError}
    (h : (step host below env context (object.behind s)).runIn w = (.error err, w')) :
    FailsElsewhere host below env context object s w err w' := by
  simp only [step_behind, hs, Bool.true_and] at h
  obtain hobject | ⟨target, w₁, hobject, h⟩ := Eval.runIn_bind_eq_error_iff.1 h
  · exact .object hobject
  · -- On null the step comes to null, and so does not fail.
    by_cases hnull : target.isNull = true
    · simp [hnull] at h
    · have hne : target ≠ .null := by
        rintro rfl
        exact hnull rfl
      simp only [if_neg hnull, intercept, henv, pure_bind] at h
      obtain hargs | ⟨args, w₂, hargs, h⟩ := Eval.runIn_bind_eq_error_iff.1 h
      · exact .arguments hobject hne hargs
      · exact .member hobject hne hargs h

/-! ### Queries -/

/-- The tree of a query is a base, itself no member step, with any number of member steps behind it.
A step is null-safe if it or one before it in its chain is written with `?.`; parentheses end a chain.

Suppose that what stands before some of the steps comes to null, as long as the limit of depth is
not hit.  If all of these are null-safe, then the whole comes to null, in the same world and so with
the same calls of the host.  If not, then without an interceptor the whole fails on null at the first
one that is not, behind the arguments of that step.  And without an interceptor no null-safe step
fails on null. -/
theorem evaluate_nullSafe_chain {q : String} {stream : TokenStream} {e : Expr}
    (hq : tokenize q = .ok stream) (he : Expr.parse q = .ok e) {t : Derivation .expression}
    (hgreedy : t.IsGreedy) (htokens : t.tokens = stream.kinds) :
    (e = t.base.chain t.steps ∧ ∀ (object : Expr) (s : MemberStep), t.base ≠ object.behind s) ∧
    (∀ earlier written later, t.chains = earlier ++ written :: later → ∀ k < written.length,
      (t.steps[earlier.flatten.length + k]?).map MemberStep.nullSafe =
        some ((written.take (k + 1)).any WrittenStep.nullSafe)) ∧
    (∀ before behind, t.steps = before ++ behind → behind ≠ [] → ∀ {σ : Type} (host : Host σ)
      (env : Environment) (context : Context) (w w' : World σ),
      (forcedValue host env context (t.base.chain before)).runIn w = (.ok .null, w') →
      StaysBelowLimit host env context e w →
      ((∀ s ∈ behind, s.nullSafe = true) →
        (evaluate host env context e).runIn w = (.ok .null, w')) ∧
      ∀ safe s later, behind = safe ++ s :: later → (∀ s' ∈ safe, s'.nullSafe = true) →
        s.nullSafe = false → env.interceptor = none →
        (evaluate host env context e).runIn w = (do
          let _ ← evalArguments (above host (evalAt host (w.levels env) 0) safe.length) env context
            s.arguments
          throw (.invalidMemberTarget s.name "null") : Eval σ Value).runIn w') ∧
    ∀ before s later, t.steps = before ++ s :: later → s.nullSafe = true → ∀ {σ : Type}
      (host : Host σ) (below : Evaluator σ) (env : Environment) (context : Context)
      (w w' : World σ) (err : EvalError), env.interceptor = none →
      (step host below env context (t.base.chain (before ++ [s]))).runIn w = (.error err, w') →
      FailsElsewhere host below env context (t.base.chain before) s w err w' := by
  have htree : e = t.base.chain t.steps := by
    rw [← (Parser.tree_eq_of_greedy hq he hgreedy htokens).1, t.tree_eq_chain]
  refine ⟨⟨htree, fun object s => t.base_ne_behind object s⟩, ?_, ?_, ?_⟩
  · intro earlier written later hchains k hk
    exact Derivation.nullSafe_steps hchains hk
  · intro before behind hsteps hne σ host env context w w' hnull hlimit
    rw [htree, hsteps, Expr.chain_append] at hlimit ⊢
    constructor
    · intro hsafe
      exact runIn_evaluate_chain_of_null hne hsafe hnull hlimit
    · rintro safe s later rfl hsafe hs henv
      exact runIn_evaluate_chain_of_plain hsafe hs henv hnull hlimit
  · intro before s later hsteps hs σ host below env context w w' err henv h
    rw [Expr.chain_concat] at h
    exact failsElsewhere_of_nullSafe hs henv h

/-- The last step of `null?.b.c(f())` has an argument that cannot be evaluated, and is not. -/
theorem evaluate_nullSafe_chain_of_call :
    ∃ e, Expr.parse "null?.b.c(f())" = .ok e ∧
      (evaluate (Host.constant .null) ⟨.empty, none, ⟨3, false⟩⟩ .empty e).runIn
        ⟨(), #[]⟩ = (.ok .null, ⟨(), #[]⟩) := by
  obtain ⟨stream, hstream, hkinds⟩ := readsAs_eq_true.1
    (show readsAs "null?.b.c(f())" [.null, .symbol .nullSafeDot, .identifier "b", .symbol .dot,
      .identifier "c", .symbol .leftParen, .identifier "f", .symbol .leftParen,
      .symbol .rightParen, .symbol .rightParen] = true by decide +kernel)
  let argument : Derivation .expression := (Derivation.ofPrimary (.call "f" .none)).ofUnary
  let first : Derivation .path := .step (.primary (.literal .null)) true (.identifier "b")
  let t : Derivation .expression :=
    Derivation.ofUnary (.path (.stepCall first false (.identifier "c") (.last argument)))
  have hgreedy : t.IsGreedy := ⟨rfl, ⟨rfl, trivial⟩, trivial⟩
  have htokens : t.tokens = stream.kinds := hkinds.symm
  have houtcome := Parser.parse_of_greedy hstream hgreedy htokens
  have he := houtcome.eq_ok ⟨by decide, by decide⟩
  obtain ⟨-, -, hnull, -⟩ := evaluate_nullSafe_chain hstream he hgreedy htokens
  have hsafe : ∀ s ∈ t.steps, s.nullSafe = true :=
    List.all_eq_true.1 (show t.steps.all MemberStep.nullSafe = true from rfl)
  exact ⟨_, he, (hnull [] t.steps rfl (List.cons_ne_nil _ _) _ _ _ _ _ rfl fun _ => rfl).1 hsafe⟩

/-- In `(null?.b).c` the first `?.` is that of the first of two steps.  The value up to that step is
null, but the second step is plain, and fails on it. -/
theorem exists_nullSafe_chain_broken :
    let env : Environment := ⟨.empty, none, ⟨3, false⟩⟩
    let w : World Unit := ⟨(), #[]⟩
    let first : MemberStep := ⟨"b", none, true⟩
    let second : MemberStep := ⟨"c", none, false⟩
    let e := (Expr.literal .null).chain [first, second]
    Expr.parse "(null?.b).c" = .ok e ∧
      (forcedValue (Host.constant .null) env .empty ((Expr.literal .null).chain [first])).runIn w =
        (.ok .null, w) ∧
      StaysBelowLimit (Host.constant .null) env .empty e w ∧
      (evaluate (Host.constant .null) env .empty e).runIn w =
        (.error (.invalidMemberTarget "c" "null"), w) := by
  intro env w first second e
  obtain ⟨stream, hstream, hkinds⟩ := readsAs_eq_true.1
    (show readsAs "(null?.b).c" [.symbol .leftParen, .null, .symbol .nullSafeDot, .identifier "b",
      .symbol .rightParen, .symbol .dot, .identifier "c"] = true by decide +kernel)
  let inner : Derivation .path := .step (.primary (.literal .null)) true (.identifier "b")
  let t : Derivation .expression := Derivation.ofUnary (.path
    (.step (.primary (.group (Derivation.ofUnary (.path inner)))) false (.identifier "c")))
  have hgreedy : t.IsGreedy := ⟨rfl, rfl, trivial⟩
  have htokens : t.tokens = stream.kinds := hkinds.symm
  have houtcome := Parser.parse_of_greedy hstream hgreedy htokens
  have hfails : (evaluate (Host.constant .null) env .empty e).runIn w =
      (.error (.invalidMemberTarget "c" "null"), w) := rfl
  have hlimit : StaysBelowLimit (Host.constant .null) env .empty e w := by
    intro atLimit
    rw [hfails]
    rfl
  exact ⟨houtcome.eq_ok ⟨by decide, by decide⟩, rfl, hlimit, hfails⟩

end PathQuery
