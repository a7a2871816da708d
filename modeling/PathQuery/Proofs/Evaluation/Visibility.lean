/-
What a query sees.

* **`Scene.Agree`** — two scenes in which the names that an expression mentions mean the same;
* **`Scene.Interchangeable`** — two scenes in which an expression has the same value or error, the
  host is asked the same, and functions have the same answers later on;
* **`interchangeable_of_agree`** — scenes that agree are interchangeable; so are those that differ
  in an unmentioned name or in the nesting of the variables.

Design notes: closures keep the scene that they were made in.  The two sides hold different ones at
the same places, and what is kept up is that each two agree on the names in their body.
-/
import PathQuery.Proofs.Evaluation.Simulation.SameHost
import PathQuery.Proofs.Context

namespace PathQuery

/-! ### Layers of variables -/

namespace Context

theorem get?_mk_layers (own : List (String × Value)) (c : Context) (name : String) :
    (Context.mk own c.layers).get? name = (own.lookup name).or (c.get? name) := by
  change List.findSome? _ (own :: c.layers) = _
  rw [List.findSome?_cons]
  cases own.lookup name <;> rfl

theorem toFields_mk_layers (own : List (String × Value)) (c : Context) :
    (Context.mk own c.layers).toFields = Fields.insertAll c.toFields own := rfl

/-- Parameters go to the own layer, whatever is below. -/
theorem bind_mk (own : List (String × Value)) (outer : List (List (String × Value)))
    (params : List String) (args : List Value) :
    (Context.mk own outer).bind params args = ⟨((ofFields own).bind params args).own, outer⟩ := by
  induction params generalizing own args with
  | nil => rfl
  | cons param params ih => exact ih _ _

/-- The variables inside the body of a closure are a layer on top of the captured ones. -/
theorem bind_nested (c : Context) (params : List String) (args : List Value) :
    c.nested.bind params args = ⟨(empty.bind params args).own, c.layers⟩ :=
  bind_mk [] c.layers params args

end Context

/-! ### Scenes that agree -/

/-- Scenes in which the names that an expression mentions mean the same. -/
structure Scene.Agree (s s' : Scene) (e : Expr) : Prop where
  interceptor : s.environment.interceptor = s'.environment.interceptor
  options : s.environment.options = s'.environment.options
  context : ∀ name ∈ e.variableNames, s.context.get? name = s'.context.get? name
  globals : ∀ name ∈ e.variableNames ++ e.functionNames,
    s.environment.globals.get? name = s'.environment.globals.get? name
  all : contextAlias ∈ e.variableNames → s.context.toFields = s'.context.toFields

/-- Closures with the same text, and with scenes that agree on it. -/
structure Closure.Agree (c c' : Closure) : Prop where
  params : c.params = c'.params
  body : c.body = c'.body
  scene : Scene.Agree ⟨c.environment, c.captured⟩ ⟨c'.environment, c'.captured⟩ c.body

namespace Scene.Agree

variable {s s' : Scene} {e p : Expr}

theorem refl (s : Scene) (e : Expr) : s.Agree s e :=
  ⟨rfl, rfl, fun _ _ => rfl, fun _ _ => rfl, fun _ => rfl⟩

/-- Less is mentioned in fewer nodes. -/
theorem of_nodes_subset (h : s.Agree s' e) (hp : p.nodes ⊆ e.nodes) : s.Agree s' p where
  interceptor := h.interceptor
  options := h.options
  context name hname := h.context name (Expr.variableNames_subset hp hname)
  globals name hname := h.globals name <|
    (List.mem_append.1 hname).elim
      (fun hv => List.mem_append_left _ (Expr.variableNames_subset hp hv))
      (fun hf => List.mem_append_right _ (Expr.functionNames_subset hp hf))
  all hname := h.all (Expr.variableNames_subset hp hname)

end Scene.Agree

namespace Closure.Agree

theorem refl (c : Closure) : c.Agree c := ⟨rfl, rfl, .refl _ _⟩

/-- The parameters on top are the same, so the scenes of a call agree as well. -/
theorem scene_args {c c' : Closure} (h : c.Agree c') (args : List Value) :
    (c.scene args).Agree (c'.scene args) c.body where
  interceptor := h.scene.interceptor
  options := h.scene.options
  globals := h.scene.globals
  context name hname := by
    have hget := h.scene.context name hname
    change (c.scope args).get? name = (c'.scope args).get? name
    rw [Closure.scope, Closure.scope, Context.bind_nested, Context.bind_nested,
      Context.get?_mk_layers, Context.get?_mk_layers, hget, h.params]
  all hname := by
    have hall := h.scene.all hname
    change (c.scope args).toFields = (c'.scope args).toFields
    rw [Closure.scope, Closure.scope, Context.bind_nested, Context.bind_nested,
      Context.toFields_mk_layers, Context.toFields_mk_layers, hall, h.params]

end Closure.Agree

/-- Evaluations side by side in scenes that agree. -/
def agreement (σ : Type) : Simulation σ σ where
  worlds := World.Related Closure.Agree
  scenes := Scene.Agree
  cutOff _ := False
  size_closures h := h.size
  called h hc hc' := by
    have hrel := h.closures _ _ _ hc hc'
    exact ⟨hrel.body, hrel.scene_args⟩
  made h hs := h.push ⟨rfl, rfl, hs.of_nodes_subset (Expr.nodes_body_subset _ _)⟩
  part hs _ hp := hs.of_nodes_subset (Expr.nodes_subset_of_mem_parts hp)
  interceptor hs := hs.interceptor
  variable_get {_ _ name} hs := by
    have hname := Expr.mem_variableNames_self name
    exact ⟨hs.context name hname, hs.globals name (List.mem_append_left _ hname),
      fun hthis => hs.all (hthis ▸ hname)⟩
  variable_strict hs := .inl (by rw [hs.options])
  call_get {_ _ name args} hs :=
    hs.globals name (List.mem_append_right _ (Expr.mem_functionNames_self name args))
  maxDepth hs := .inl (by rw [hs.options])

variable {σ : Type} {host : Host σ}

theorem follows_self_agreement (host : Host σ) : Host.Follows (agreement σ) host host :=
  Host.follows_self rfl (Host.passesOn_of_forall_not (fun _ => id) host)

theorem levels_eq_of_agree {w w' : World σ} (h : w.Related Closure.Agree w')
    {env env' : Environment} (henv : env.options = env'.options) :
    w.levels env = w'.levels env' := by
  refine Nat.le_antisymm ?_ ?_
  · exact World.levels_le_of_related h (Nat.le_of_eq (congrArg _ henv)) fun c c' hc =>
      Nat.le_of_eq (congrArg EngineOptions.maxDepth hc.scene.options)
  · exact World.levels_le_of_related h.flip (Nat.le_of_eq (congrArg _ henv.symm)) fun c c' hc =>
      Nat.le_of_eq (congrArg EngineOptions.maxDepth hc.scene.options.symm)

theorem evaluate_follows_of_agree (host : Host σ) {s s' : Scene} {e : Expr} (h : s.Agree s' e) :
    (agreement σ).Follows (evaluate host s.environment s.context e)
      (evaluate host s'.environment s'.context e) :=
  evaluate_follows (S := agreement σ) (follows_self_agreement host) h fun _ _ hw =>
    .inl (levels_eq_of_agree hw h.options)

theorem callValue_follows (host : Host σ) (f : FunctionRef) (args : List Value) :
    (agreement σ).Follows (callValue host f args) (callValue host f args) := by
  intro w w' hw
  have hlevels : w.levels default = w'.levels default := levels_eq_of_agree hw rfl
  rw [callValue, runIn_atTop, runIn_atTop, hlevels]
  exact callFunction_follows (follows_self_agreement host).toComputes
    (evalAt_follows (follows_self_agreement host) (.inl rfl) 0) f args w w' hw

/-! ### Functions called later on -/

/-- The answers to calls of functions, one behind the other, and the world behind them. -/
def callAll (host : Host σ) :
    List (FunctionRef × List Value) → World σ → List (Except EvalError Value) × World σ
  | [], w => ([], w)
  | (f, args) :: calls, w =>
    let (answer, w) := (callValue host f args).runIn w
    let (answers, w) := callAll host calls w
    (answer :: answers, w)

theorem callAll_cons (f : FunctionRef) (args : List Value) (calls : List (FunctionRef × List Value))
    (w : World σ) :
    callAll host ((f, args) :: calls) w =
      (((callValue host f args).runIn w).1 ::
          (callAll host calls ((callValue host f args).runIn w).2).1,
        (callAll host calls ((callValue host f args).runIn w).2).2) := rfl

theorem callAll_eq_of_agree (host : Host σ) (calls : List (FunctionRef × List Value))
    {w w' : World σ} (h : w.Related Closure.Agree w') :
    (callAll host calls w).1 = (callAll host calls w').1 ∧
      (callAll host calls w).2.Related Closure.Agree (callAll host calls w').2 := by
  induction calls generalizing w w' with
  | nil => exact ⟨rfl, h⟩
  | cons call calls ih =>
    obtain ⟨f, args⟩ := call
    obtain ⟨hanswer, hworld⟩ :=
      (callValue_follows host f args w w' h).eq_of_forall_not fun _ => id
    obtain ⟨hanswers, hworlds⟩ := ih hworld
    rw [callAll_cons, callAll_cons, hanswer, hanswers]
    exact ⟨rfl, hworlds⟩

/-! ### Interchangeable scenes -/

/-- Wherever an expression is evaluated in one scene or in the other, it has the same value or error
and the host is asked the same; and all functions, those in the value too, have the same answers
when they are called later on, and the host is asked the same by them. -/
def Scene.Interchangeable (host : Host σ) (e : Expr) (s s' : Scene) : Prop :=
  ∀ w : World (σ × List HostCall),
    let r := (evaluate host.logged s.environment s.context e).runIn w
    let r' := (evaluate host.logged s'.environment s'.context e).runIn w
    r.1 = r'.1 ∧ r.2.state = r'.2.state ∧
      ∀ calls, (callAll host.logged calls r.2).1 = (callAll host.logged calls r'.2).1 ∧
        (callAll host.logged calls r.2).2.state = (callAll host.logged calls r'.2).2.state

theorem Scene.Agree.interchangeable {s s' : Scene} {e : Expr} (h : s.Agree s' e)
    (host : Host σ) : Scene.Interchangeable host e s s' := by
  intro w
  have hends := evaluate_follows_of_agree host.logged h w w
    (World.Related.refl Closure.Agree.refl w)
  obtain ⟨hanswer, hworld⟩ := hends.eq_of_forall_not fun _ => id
  refine ⟨hanswer, hworld.state, fun calls => ?_⟩
  obtain ⟨hanswers, hworlds⟩ := callAll_eq_of_agree host.logged calls hworld
  exact ⟨hanswers, hworlds.state⟩

section

variable {e : Expr} {env : Environment} {context context' : Context} {name : String}

/-- A variable that is not mentioned does not matter, unless all variables together are. -/
theorem agree_of_variable (hname : name ∉ e.variableNames) (hall : contextAlias ∉ e.variableNames)
    (h : ∀ other, other ≠ name → context.get? other = context'.get? other) :
    Scene.Agree ⟨env, context⟩ ⟨env, context'⟩ e where
  interceptor := rfl
  options := rfl
  context other hother := h other fun heq => hname (heq ▸ hother)
  globals _ _ := rfl
  all hmem := absurd hmem hall

/-- A function that is not mentioned does not matter. -/
theorem agree_of_global {globals : Globals} (hname : name ∉ e.variableNames ++ e.functionNames)
    (h : ∀ other, other ≠ name → env.globals.get? other = globals.get? other) :
    Scene.Agree ⟨env, context⟩ ⟨{ env with globals := globals }, context⟩ e where
  interceptor := rfl
  options := rfl
  context _ _ := rfl
  globals other hother := h other fun heq => hname (heq ▸ hother)
  all _ := rfl

/-- Nested variables may be put into a single layer. -/
theorem agree_of_toFields (h : context.HasDistinctNames) :
    Scene.Agree ⟨env, context⟩ ⟨env, .ofFields context.toFields⟩ e where
  interceptor := rfl
  options := rfl
  context other _ := by
    change context.get? other = (Context.ofFields context.toFields).get? other
    rw [Context.get?_ofFields, Context.lookup_toFields h]
  globals _ _ := rfl
  all _ := (Context.toFields_ofFields context.nodup_names_toFields).symm

end

/-- A query sees only the names that it mentions: scenes that agree on those are interchangeable.
So are scenes that differ in a variable or a function that is not mentioned, and variables in layers
and in a single one. -/
theorem interchangeable_of_agree (host : Host σ) (e : Expr) :
    (∀ s s', s.Agree s' e → Scene.Interchangeable host e s s') ∧
    (∀ env context context' name, name ∉ e.variableNames → contextAlias ∉ e.variableNames →
      (∀ other, other ≠ name → context.get? other = context'.get? other) →
        Scene.Interchangeable host e ⟨env, context⟩ ⟨env, context'⟩) ∧
    (∀ env context globals name, name ∉ e.variableNames ++ e.functionNames →
      (∀ other, other ≠ name → env.globals.get? other = globals.get? other) →
        Scene.Interchangeable host e ⟨env, context⟩ ⟨{ env with globals := globals }, context⟩) ∧
    ∀ env context, context.HasDistinctNames →
      Scene.Interchangeable host e ⟨env, context⟩ ⟨env, .ofFields context.toFields⟩ := by
  refine ⟨fun s s' h => h.interchangeable host, ?_, ?_, ?_⟩
  · intro env context context' name hname hall h
    exact (agree_of_variable hname hall h).interchangeable host
  · intro env context globals name hname h
    exact (agree_of_global hname h).interchangeable host
  · intro env context h
    exact (agree_of_toFields h).interchangeable host

/-- A function that is called with a closure, which mentions a variable of the query. -/
def closureOverY : Expr :=
  .call "f" [.closure ["x"] (.list [.variable "x", .variable "y"]), .literal (.boolean true)]

/-- A scene with a variable and a function that are not mentioned, and with a nested layer. -/
def wideScene : Scene where
  environment := ⟨.register (.register .empty "f" 0) "g" 1, none, {}⟩
  context := (Context.empty.insert "y" (.boolean true)).nested.insert "z" .null

/-- A scene with what is mentioned only. -/
def narrowScene : Scene where
  environment := ⟨.register .empty "f" 0, none, {}⟩
  context := Context.empty.insert "y" (.boolean true)

theorem interchangeable_wideScene :
    wideScene.Agree narrowScene closureOverY ∧ wideScene.context.HasDistinctNames ∧
      "z" ∉ closureOverY.variableNames ∧ contextAlias ∉ closureOverY.variableNames ∧
      "g" ∉ closureOverY.variableNames ++ closureOverY.functionNames ∧
      Scene.Interchangeable applyingHost closureOverY wideScene narrowScene ∧
      Scene.Interchangeable applyingHost closureOverY wideScene
        ⟨wideScene.environment, (Context.empty.insert "y" (.boolean true)).nested⟩ ∧
      Scene.Interchangeable applyingHost closureOverY wideScene
        ⟨{ wideScene.environment with globals := .register .empty "f" 0 }, wideScene.context⟩ ∧
      Scene.Interchangeable applyingHost closureOverY wideScene
        ⟨wideScene.environment, .ofFields wideScene.context.toFields⟩ := by
  obtain ⟨hagree, hvariable, hglobal, hflat⟩ := interchangeable_of_agree applyingHost closureOverY
  have hz : "z" ∉ closureOverY.variableNames := by decide
  have hthis : contextAlias ∉ closureOverY.variableNames := by decide
  have hg : "g" ∉ closureOverY.variableNames ++ closureOverY.functionNames := by decide
  have hget : ∀ other, other ≠ "g" → wideScene.environment.globals.get? other =
      (Globals.register .empty "f" 0).get? other := fun other hother => by
    change (Fields.insert "g" 1 _).lookup other = _
    rw [Fields.lookup_insert, if_neg hother]
    rfl
  have hscenes : wideScene.Agree narrowScene closureOverY := {
    interceptor := rfl
    options := rfl
    context := fun name hname => by
      have hne : name ≠ "z" := fun h => hz (h ▸ hname)
      exact Context.get?_insert_of_ne _ hne _
    globals := fun name hname => hget name fun h => hg (h ▸ hname)
    all := fun hname => absurd hname hthis }
  have hnames : wideScene.context.HasDistinctNames :=
    (Context.hasDistinctNames_empty.insert _ _).nested.insert _ _
  refine ⟨hscenes, hnames, hz, hthis, hg, hagree _ _ hscenes, ?_, ?_, ?_⟩
  · exact hvariable _ _ _ "z" hz hthis fun other hother => Context.get?_insert_of_ne _ hother _
  · exact hglobal _ _ _ "g" hg hget
  · exact hflat _ _ hnames

end PathQuery
