/-
Levels of evaluation side by side.

* **`arrayMethod?_follows`** — methods of arrays follow each other if selectors do;
* **`step_follows`** — one level of evaluation follows another if the levels below and the hosts do;
* **`evalAt_follows`, `evaluate_follows`** — and so do all levels.

Design notes: member steps are kept apart, so that two evaluators that differ in them only can be
compared as well.
-/
import PathQuery.Proofs.Evaluation.Simulation

namespace PathQuery

variable {σ τ : Type}

/-- Whether an expression is a member step. -/
def Expr.isMemberStep : Expr → Bool
  | .member .. => true
  | .memberCall .. => true
  | _ => false

section

variable {S : Simulation σ τ} {host : Host σ} {host' : Host τ} {below : Evaluator σ}
  {below' : Evaluator τ}

/-! ### Members -/

theorem useEntry_follows (hhost : Host.Computes S host host') (hbelow : S.Evaluators below below')
    (member : String) (args : Option (List Value)) (v : Value) :
    S.Follows (useEntry host below member args v) (useEntry host' below' member args v) := by
  cases v with
  | function f =>
    cases args with
    | some args => exact callFunction_follows hhost hbelow f args
    | none => exact .pure _
  | deferred lazy => exact request_follows hbelow (hhost.force lazy)
  | _ =>
    cases args with
    | some args => exact .throw _
    | none => exact .pure _

/-- Selectors are applied alike. -/
def Simulation.Selects (S : Simulation σ τ) (select : Collection.Select σ)
    (select' : Collection.Select τ) : Prop :=
  ∀ method selector item, S.Follows (select method selector item) (select' method selector item)

section

variable {select : Collection.Select σ} {select' : Collection.Select τ}

theorem selected_follows (h : S.Selects select select') (method : String) (args : List Value)
    (item : Value) : S.Follows (Collection.selected select method args item)
      (Collection.selected select' method args item) := by
  rw [Collection.selected, Collection.selected]
  cases args.head? with
  | some selector => exact h _ _ _
  | none => exact .pure _

theorem required_follows (method : String) (args : List Value) :
    S.Follows (Collection.required method args) (Collection.required method args) := by
  rw [Collection.required, Collection.required]
  cases args.head? with
  | some selector => exact .pure _
  | none => exact .throw _

theorem numbers_follows (h : S.Selects select select') (method : String)
    (items args : List Value) : S.Follows (Collection.numbers select method items args)
      (Collection.numbers select' method items args) := by
  refine .mapM fun item _ => (selected_follows h _ _ _).bind fun v => ?_
  split
  · exact .pure _
  · exact .throw _

theorem pluck_follows (h : S.Selects select select') (items args : List Value) :
    S.Follows (Collection.pluck select items args) (Collection.pluck select' items args) := by
  rw [Collection.pluck, Collection.pluck]
  split
  · exact (Simulation.Follows.mapM fun item _ => h _ _ _).bind fun _ => .pure _
  · exact .throw _

theorem avg_follows (h : S.Selects select select') (items args : List Value) :
    S.Follows (Collection.avg select items args) (Collection.avg select' items args) := by
  refine (numbers_follows h _ _ _).bind fun ns => ?_
  split <;> exact .pure _

/-- The methods of arrays, or null for a name that is none. -/
theorem arrayMethod?_follows (h : S.Selects select select') (name : String)
    (items args : List Value) :
    S.Follows ((Collection.arrayMethod? select name items args).getD (pure .null))
      ((Collection.arrayMethod? select' name items args).getD (pure .null)) := by
  have hflag := fun method item => (selected_follows h method args item).bind fun v =>
    Simulation.Follows.pure (S := S) v.isTruthy
  unfold Collection.arrayMethod?
  split
  case h_7 =>
    exact (required_follows _ _).bind fun _ =>
      (Simulation.Follows.mapM fun _ _ => h _ _ _).bind fun _ => .pure _
  case h_8 =>
    exact (required_follows _ _).bind fun _ =>
      (Simulation.Follows.mapM fun _ _ => h _ _ _).bind fun _ => .pure _
  case h_9 => exact pluck_follows h items args
  case h_10 => exact (Simulation.Follows.anyM (hflag _) items).bind fun _ => .pure _
  case h_11 => exact (Simulation.Follows.allM (hflag _) items).bind fun _ => .pure _
  case h_12 => exact (numbers_follows h _ _ _).bind fun _ => .pure _
  case h_15 => exact avg_follows h items args
  case h_17 =>
    refine (Simulation.Follows.mapM fun _ _ => selected_follows h _ _ _).bind fun keys => ?_
    cases Collection.sortByKey (items.zip keys) with
    | some entries => exact .pure _
    | none => exact .throw _
  all_goals exact .pure _

/-- A member is accessed alike if that is so for objects of the host. -/
theorem access_follows (hhost : Host.Computes S host host') (hbelow : S.Evaluators below below')
    (hselect : S.Selects select select') {target : Value} {member : String}
    {args : Option (List Value)}
    (hobject : ∀ object, target = .host object →
      S.Follows (access host below select target member args)
        (access host' below' select' target member args)) :
    S.Follows (access host below select target member args)
      (access host' below' select' target member args) := by
  cases target with
  | host object => exact hobject object rfl
  | array items =>
    rw [access, access]
    split
    · exact useEntry_follows hhost hbelow _ _ _
    · exact arrayMethod?_follows hselect _ _ _
  | object fields =>
    rw [access, access]
    split
    · exact useEntry_follows hhost hbelow _ _ _
    · exact .pure _
  | _ => exact .throw _

end

/-- An object of the host: a method if it has one, else a property. -/
theorem accessObject_follows (hhost : Host.Follows S host host')
    (hbelow : S.Evaluators below below') (select : Collection.Select σ)
    (select' : Collection.Select τ) (object : HostObject) (member : String)
    (args : Option (List Value)) :
    S.Follows (access host below select (.host object) member args)
      (access host' below' select' (.host object) member args) := by
  rw [access, access]
  refine (hhost.hasMethod object member).bind fun b => ?_
  cases b with
  | true => exact request_follows hbelow (hhost.callMethod _ _ _)
  | false =>
    refine (hhost.property object member).bind fun entry => ?_
    cases entry with
    | some entry => exact useEntry_follows hhost.toComputes hbelow _ _ _
    | none => exact .pure _

theorem intercept_follows (hhost : Host.Follows S host host') (hbelow : S.Evaluators below below')
    {env env' : Environment} (henv : env.interceptor = env'.interceptor) (v : Value) :
    S.Follows (intercept host below env v) (intercept host' below' env' v) := by
  rw [intercept, intercept, ← henv]
  cases env.interceptor with
  | some interceptor => exact request_follows hbelow (hhost.intercept interceptor v)
  | none => exact .pure _

/-- A member step behind its object and its arguments. -/
theorem interceptAccess_follows (hhost : Host.Follows S host host')
    (hbelow : S.Evaluators below below') {env env' : Environment}
    (henv : env.interceptor = env'.interceptor) {select : Collection.Select σ}
    {select' : Collection.Select τ} (hselect : S.Selects select select') (target : Value)
    (member : String) (args : Option (List Value)) :
    S.Follows
      (do
        let target ← intercept host below env target
        access host below select target member args)
      (do
        let target ← intercept host' below' env' target
        access host' below' select' target member args) :=
  (intercept_follows hhost hbelow henv target).bind fun _ =>
    access_follows hhost.toComputes hbelow hselect fun object h => by
      subst h
      exact accessObject_follows hhost hbelow select select' object member args

/-- Applying a selector, if members are read alike. -/
theorem select_follows (hhost : Host.Computes S host host') (hbelow : S.Evaluators below below')
    {env env' : Environment}
    (hread : ∀ item member, S.Follows (readMember host below env item member)
      (readMember host' below' env' item member)) :
    S.Selects (select host below env) (select host' below' env') := by
  intro method selector item
  cases selector with
  | function f => exact callFunction_follows hhost hbelow f [item]
  | string member => exact hread item member
  | _ => exact .throw _

theorem readMember_follows (hhost : Host.Follows S host host') (hbelow : S.Evaluators below below')
    {env env' : Environment} (henv : env.interceptor = env'.interceptor) (item : Value)
    (member : String) : S.Follows (readMember host below env item member)
      (readMember host' below' env' item member) := by
  refine (force_follows hhost.toComputes hbelow item).bind fun v => ?_
  exact interceptAccess_follows hhost hbelow henv (fun _ _ _ => .pure _) v member none

/-! ### Levels -/

theorem mapM_below_follows (hbelow : S.Evaluators below below') {s s' : Scene} {es : List Expr}
    (h : ∀ e ∈ es, S.scenes s s' e) :
    S.Follows (es.mapM (below s.environment s.context))
      (es.mapM (below' s'.environment s'.context)) :=
  .mapM fun e he => hbelow (h e he)

/-- What two operands come to. -/
theorem operands_follow (hbelow : S.Evaluators below below') {s s' : Scene} {l r : Expr}
    (hl : S.scenes s s' l) (hr : S.scenes s s' r) {α : Type} {f : Value → Value → Eval σ α}
    {f' : Value → Value → Eval τ α} (hf : ∀ a b, S.Follows (f a b) (f' a b)) :
    S.Follows
      (do
        let a ← below s.environment s.context l
        let b ← below s.environment s.context r
        f a b)
      (do
        let a ← below' s'.environment s'.context l
        let b ← below' s'.environment s'.context r
        f' a b) :=
  (hbelow hl).bind fun a => (hbelow hr).bind fun b => hf a b

theorem memberObject_follows (hhost : Host.Computes S host host')
    (hbelow : S.Evaluators below below') {s s' : Scene} {object : Expr}
    (h : S.scenes s s' object) :
    S.Follows (memberObject host below s.environment s.context object)
      (memberObject host' below' s'.environment s'.context object) :=
  (hbelow h).bind fun v => force_follows hhost hbelow v

/-- One level of evaluation at a node that is no member step. -/
theorem step_follows_of_not_isMemberStep (hhost : Host.Computes S host host')
    (hbelow : S.Evaluators below below') {s s' : Scene} {e : Expr} (h : S.scenes s s' e)
    (he : e.isMemberStep = false) :
    S.Follows (step host below s.environment s.context e)
      (step host' below' s'.environment s'.context e) := by
  have hpart := S.part h
  cases e with
  | member object name nullSafe => exact absurd he (by simp [Expr.isMemberStep])
  | memberCall object name args nullSafe => exact absurd he (by simp [Expr.isMemberStep])
  | literal v => exact .pure _
  | «variable» name =>
    refine (resolve_follows hhost hbelow h).bind fun found => ?_
    cases found with
    | some v => exact .pure _
    | none =>
      simp only []
      obtain hstrict | ⟨hstrict, hcut⟩ := S.variable_strict h
      · rw [← hstrict]
        split
        · exact .throw _
        · exact .pure _
      · rw [if_pos hstrict]
        exact .throw_of_cutOff hcut _
  | list es => exact (mapM_below_follows hbelow hpart).bind fun _ => .pure _
  | arguments es => exact (mapM_below_follows hbelow hpart).bind fun _ => .pure _
  | call name args =>
    rw [step, step, ← S.call_get h]
    split
    · exact (mapM_below_follows hbelow hpart).bind fun _ =>
        request_follows hbelow (hhost.call _ _)
    · exact .throw _
  | arithmetic op l r =>
    exact operands_follow hbelow (hpart l (by simp [Expr.parts])) (hpart r (by simp [Expr.parts]))
      fun _ _ => .ofExcept _
  | comparison op l r =>
    exact operands_follow hbelow (hpart l (by simp [Expr.parts])) (hpart r (by simp [Expr.parts]))
      fun _ _ => .ofExcept _
  | logical op l r =>
    exact operands_follow hbelow (hpart l (by simp [Expr.parts])) (hpart r (by simp [Expr.parts]))
      fun _ _ => .pure _
  | coalesce l r =>
    refine (hbelow (hpart l (by simp [Expr.parts]))).bind fun v => ?_
    split
    · exact hbelow (hpart r (by simp [Expr.parts]))
    · exact .pure _
  | ternary c t o =>
    refine (hbelow (hpart c (by simp [Expr.parts]))).bind fun v => ?_
    split
    · exact hbelow (hpart t (by simp [Expr.parts]))
    · exact hbelow (hpart o (by simp [Expr.parts]))
  | elvis c o =>
    refine (hbelow (hpart c (by simp [Expr.parts]))).bind fun v => ?_
    split
    · exact .pure _
    · exact hbelow (hpart o (by simp [Expr.parts]))
  | closure params body => exact (Simulation.Follows.newClosure h).bind fun _ => .pure _

/-- One level of evaluation follows another if the levels below and the hosts do. -/
theorem step_follows (hhost : Host.Follows S host host') (hbelow : S.Evaluators below below') :
    S.Evaluators (step host below) (step host' below') := by
  intro s s' e h
  have hpart := S.part h
  have henv := S.interceptor h
  have hselect := select_follows hhost.toComputes hbelow
    (readMember_follows hhost hbelow henv)
  cases e with
  | member object name nullSafe =>
    refine (memberObject_follows hhost.toComputes hbelow
      (hpart object (by simp [Expr.parts]))).bind fun target => ?_
    split
    · exact .pure _
    · exact interceptAccess_follows hhost hbelow henv hselect target name none
  | memberCall object name args nullSafe =>
    refine (memberObject_follows hhost.toComputes hbelow
      (hpart object (by simp [Expr.parts]))).bind fun target => ?_
    split
    · exact .pure _
    · refine (mapM_below_follows hbelow fun e he => hpart e ?_).bind fun args => ?_
      · exact List.mem_cons_of_mem _ he
      · exact interceptAccess_follows hhost hbelow henv hselect target name (some args)
  | _ => exact step_follows_of_not_isMemberStep hhost.toComputes hbelow h rfl

/-- Where the first side is at its limit, so is the second one, or it is cut off. -/
theorem throw_depthExceeded_follows {s s' : Scene} {e : Expr} (h : S.scenes s s' e)
    {m : Eval τ Value}
    (hm : s.environment.options.maxDepth = s'.environment.options.maxDepth →
      m = throw (.depthExceeded s'.environment.options.maxDepth)) :
    S.Follows (throw (.depthExceeded s.environment.options.maxDepth)) m := by
  obtain heq | ⟨-, hcut⟩ := S.maxDepth h
  · rw [hm heq, heq]
    exact .throw _
  · exact .throw_of_cutOff (hcut _) m

/-- All levels do, by induction on how many there are.  The second side may have more of them if
the first one is cut off where it has used up its own. -/
theorem evalAt_follows (hhost : Host.Follows S host host') {levels levels' : Nat}
    (hlevels : levels = levels' ∨ levels ≤ levels' ∧ ∀ n, S.cutOff (.depthExceeded n)) :
    ∀ depth, S.Evaluators (evalAt host levels depth) (evalAt host' levels' depth) := by
  induction levels generalizing levels' with
  | zero =>
    intro depth s s' e h
    obtain rfl | ⟨-, hcut⟩ := hlevels
    · exact throw_depthExceeded_follows h fun _ => rfl
    · exact .throw_of_cutOff (hcut _) _
  | succ levels ih =>
    intro depth s s' e h
    obtain ⟨levels', rfl⟩ : ∃ n, levels' = n + 1 := Nat.exists_eq_add_one.2 (by omega)
    rcases Nat.lt_or_ge depth s.environment.options.maxDepth with hlt | hge
    · have hlt' : depth < s'.environment.options.maxDepth := by
        have := S.maxDepth h
        omega
      rw [evalAt_of_lt hlt, evalAt_of_lt hlt']
      have hbelow : levels = levels' ∨ levels ≤ levels' ∧ ∀ n, S.cutOff (.depthExceeded n) :=
        hlevels.imp Nat.succ.inj fun h => ⟨Nat.le_of_succ_le_succ h.1, h.2⟩
      exact step_follows hhost (ih hbelow (depth + 1)) h
    · rw [evalAt_of_le hge]
      exact throw_depthExceeded_follows h fun heq => evalAt_of_le (heq ▸ hge)

/-- Evaluations from level zero, if the worlds have levels enough for that. -/
theorem evaluate_follows (hhost : Host.Follows S host host') {s s' : Scene} {e : Expr}
    (h : S.scenes s s' e)
    (hlevels : ∀ w w', S.worlds w w' → w.levels s.environment = w'.levels s'.environment ∨
      w.levels s.environment ≤ w'.levels s'.environment ∧ ∀ n, S.cutOff (.depthExceeded n)) :
    S.Follows (evaluate host s.environment s.context e)
      (evaluate host' s'.environment s'.context e) := by
  intro w w' hw
  rw [runIn_evaluate, runIn_evaluate]
  exact evalAt_follows hhost (hlevels w w' hw) 0 h w w' hw

end

end PathQuery
