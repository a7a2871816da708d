/-
The limit of depth is exact.

* **`Eval.Never`** — an evaluation does not fail with certain errors;
* **`evalAt_never_depthExceeded`** — what calls nothing and is not higher than the limit does not
  come to it;
* **`Eval.Decides`** — whether an evaluation has a value is known beforehand, and so is its error;
* **`evalAt_decides`** — what is made of total nodes has a value unless it is higher than the limit;
* **`depth_limit_exact`** — both, from level zero, and with a counter that evaluations share.

Design notes: an expression at a level is as high as it would be from level zero with so many nodes
on top of it.  The inductions are on the levels left, with the sum of height and level against the
limit.
-/
import PathQuery.Proofs.Context
import PathQuery.Proofs.Evaluation.Counted
import PathQuery.Proofs.Expr.Height

namespace PathQuery

variable {σ : Type}

namespace Eval

variable {α β : Type}

/-! ### Errors that do not come up -/

/-- An evaluation fails with no error that satisfies `p`. -/
def Never (p : EvalError → Prop) (m : Eval σ α) : Prop :=
  ∀ w e, (m.runIn w).1 = .error e → ¬ p e

namespace Never

variable {p : EvalError → Prop}

theorem pure (a : α) : Never p (Pure.pure a : Eval σ α) := fun _ _ h => nomatch h

theorem throw {e : EvalError} (he : ¬ p e) : Never p (MonadExcept.throw e : Eval σ α) := by
  intro w e' h
  obtain rfl := Except.error.inj h
  exact he

theorem bind {m : Eval σ α} {f : α → Eval σ β} (hm : Never p m) (hf : ∀ a, Never p (f a)) :
    Never p (m >>= f) := by
  intro w e h
  have hfirst := hm w
  rw [runIn_bind] at h
  rcases hrun : m.runIn w with ⟨answer, w'⟩
  rw [hrun] at h hfirst
  cases answer with
  | ok a => exact hf a w' e h
  | error e' =>
    obtain rfl := Except.error.inj h
    exact hfirst e' rfl

theorem mapM {f : α → Eval σ β} {as : List α} (hf : ∀ a ∈ as, Never p (f a)) :
    Never p (as.mapM f) := by
  induction as with
  | nil => exact pure _
  | cons a as ih =>
    rw [List.forall_mem_cons] at hf
    rw [List.mapM_cons]
    exact hf.1.bind fun _ => (ih hf.2).bind fun _ => pure _

theorem ofExcept {r : Except EvalError α} (h : ∀ e, r = .error e → ¬ p e) :
    Never p (Eval.ofExcept r : Eval σ α) := by
  cases r with
  | ok a => exact pure a
  | error e => exact throw (h e rfl)

end Never

/-! ### Evaluations that are known to have a value -/

/-- An evaluation has a value if `c` holds, and else fails with `err`. -/
def Decides (err : EvalError) (c : Prop) (m : Eval σ α) : Prop :=
  ∀ w, (c → ∃ a, (m.runIn w).1 = .ok a) ∧ (¬ c → (m.runIn w).1 = .error err)

namespace Decides

variable {err : EvalError} {c d : Prop}

theorem pure (a : α) : Decides err True (Pure.pure a : Eval σ α) :=
  fun _ => ⟨fun _ => ⟨a, rfl⟩, fun h => absurd trivial h⟩

theorem throw : Decides err False (MonadExcept.throw err : Eval σ α) :=
  fun _ => ⟨False.elim, fun _ => rfl⟩

theorem congr {m : Eval σ α} (h : Decides err c m) (hcd : c ↔ d) : Decides err d m :=
  propext hcd ▸ h

theorem bind {m : Eval σ α} {f : α → Eval σ β} (hm : Decides err c m)
    (hf : ∀ a, Decides err d (f a)) : Decides err (c ∧ d) (m >>= f) := by
  intro w
  have hfirst := hm w
  rw [runIn_bind]
  rcases hrun : m.runIn w with ⟨answer, w'⟩
  rw [hrun] at hfirst
  cases answer with
  | ok a =>
    have hc : c := Classical.not_not.1 fun hc => nomatch hfirst.2 hc
    exact ⟨fun h => (hf a w').1 h.2, fun h => (hf a w').2 fun hd => h ⟨hc, hd⟩⟩
  | error e =>
    have hc : ¬ c := fun hc => nomatch (hfirst.1 hc).choose_spec
    exact ⟨fun h => absurd h.1 hc, fun _ => congrArg Except.error (Except.error.inj (hfirst.2 hc))⟩

theorem map {m : Eval σ α} (hm : Decides err c m) (g : α → β) :
    Decides err c (m >>= fun a => Pure.pure (g a)) :=
  (hm.bind fun _ => pure _).congr (and_iff_left trivial)

theorem mapM {f : α → Eval σ β} {as : List α} {c : α → Prop}
    (hf : ∀ a ∈ as, Decides err (c a) (f a)) : Decides err (∀ a ∈ as, c a) (as.mapM f) := by
  induction as with
  | nil => exact (pure _).congr (iff_of_true trivial fun _ h => absurd h List.not_mem_nil)
  | cons a as ih =>
    rw [List.forall_mem_cons] at hf
    rw [List.mapM_cons]
    exact (hf.1.bind fun _ => (ih hf.2).map _).congr List.forall_mem_cons.symm

end Decides

end Eval

/-! ### Names and operators -/

/-- No variable is lazy. -/
def Context.HasNoLazy (c : Context) : Prop := ∀ name lazy, c.get? name ≠ some (.deferred lazy)

/-- Without lazy variables and without functions nothing has to be done for a name. -/
theorem resolve_eq_pure (host : Host σ) (below : Evaluator σ) (name : String) {context : Context}
    (h : context.HasNoLazy) : ∃ v?, resolve host below name context .empty = pure v? := by
  rw [resolve]
  cases hget : context.get? name with
  | none => exact ⟨_, rfl⟩
  | some v =>
    cases v with
    | deferred lazy => exact absurd hget (h name lazy)
    | _ => exact ⟨_, rfl⟩

theorem operand_eq_error {op : ArithmeticOp} {v : Value} {e : EvalError}
    (h : operand op v = .error e) : ∃ fault, e = .typeFault fault := by
  rw [operand] at h
  split at h
  · cases h
  · exact ⟨_, (Except.error.inj h).symm⟩

/-- What an operator fails with. -/
theorem arithmetic_eq_error {op : ArithmeticOp} {left right : Value} {e : EvalError}
    (h : arithmetic op left right = .error e) :
    (∃ fault, e = .typeFault fault) ∨ e = .divisionByZero := by
  rw [arithmetic] at h
  cases hleft : operand op left with
  | error e' =>
    rw [hleft] at h
    obtain rfl := Except.error.inj h
    exact .inl (operand_eq_error hleft)
  | ok a =>
    cases hright : operand op right with
    | error e' =>
      rw [hleft, hright] at h
      obtain rfl := Except.error.inj h
      exact .inl (operand_eq_error hright)
    | ok b =>
      rw [hleft, hright] at h
      -- There are two numbers, and only divisions of them fail.
      cases op with
      | divide | modulo =>
        dsimp only [bind, Except.bind] at h
        split at h
        · cases h
        · exact .inr (Except.error.inj h).symm
      | _ => cases h

theorem order_eq_error {op : ComparisonOp} {left right : Value} {e : EvalError}
    (h : order op left right = .error e) : ∃ fault, e = .typeFault fault := by
  unfold order at h
  split at h
  · cases h
  · -- Two texts have an order, and nothing else that is left has one.
    split at h
    · cases h
    · exact ⟨_, (Except.error.inj h).symm⟩

theorem comparison_eq_error {op : ComparisonOp} {left right : Value} {e : EvalError}
    (h : comparison op left right = .error e) : ∃ fault, e = .typeFault fault := by
  cases op with
  | equal | identical | notEqual | notIdentical => cases h
  | _ =>
    change ((order _ left right).map _).map _ = _ at h
    cases hfailed : order _ left right with
    | ok o => rw [hfailed] at h; cases h
    | error e' =>
      rw [hfailed] at h
      obtain rfl := Except.error.inj h
      exact order_eq_error hfailed

/-- All values are equal or not. -/
theorem exists_comparison_eq_ok {op : ComparisonOp} (h : op.isEquality = true) (a b : Value) :
    ∃ v, comparison op a b = .ok v := by
  cases op with
  | equal | identical | notEqual | notIdentical => exact ⟨_, rfl⟩
  | _ => cases h

/-! ### One level -/

section

variable {host : Host σ} {env : Environment} {context : Context} {e : Expr} {below : Evaluator σ}

/-- The error at the limit. -/
def EvalError.IsDepthExceeded (e : EvalError) : Prop := ∃ n, e = .depthExceeded n

/-- What calls nothing comes to the limit only in its parts. -/
theorem step_never_depthExceeded (he : e.IsCallFree) (hglobals : env.globals = .empty)
    (hlazy : context.HasNoLazy)
    (hbelow : ∀ p ∈ e.parts, (below env context p).Never EvalError.IsDepthExceeded) :
    (step host below env context e).Never EvalError.IsDepthExceeded := by
  have hself := he e e.mem_nodes_self
  cases e with
  | literal value => exact .pure _
  | «variable» name =>
    obtain ⟨v?, hresolve⟩ := resolve_eq_pure host below name hlazy
    rw [step, hglobals, hresolve, pure_bind]
    cases v? with
    | some v => exact .pure _
    | none =>
      dsimp only
      split
      · exact .throw fun h => EvalError.noConfusion h.choose_spec
      · exact .pure _
  | list es => exact (Eval.Never.mapM hbelow).bind fun _ => .pure _
  | arguments es => exact (Eval.Never.mapM hbelow).bind fun _ => .pure _
  | arithmetic op l r =>
    refine (hbelow l (by simp [Expr.parts])).bind fun a =>
      (hbelow r (by simp [Expr.parts])).bind fun b => .ofExcept ?_
    rintro _ herror ⟨n, rfl⟩
    obtain ⟨fault, h⟩ | h := arithmetic_eq_error herror <;> cases h
  | comparison op l r =>
    refine (hbelow l (by simp [Expr.parts])).bind fun a =>
      (hbelow r (by simp [Expr.parts])).bind fun b => .ofExcept ?_
    rintro _ herror ⟨n, rfl⟩
    obtain ⟨fault, h⟩ := comparison_eq_error herror
    cases h
  | logical op l r =>
    exact (hbelow l (by simp [Expr.parts])).bind fun a =>
      (hbelow r (by simp [Expr.parts])).bind fun b => .pure _
  | coalesce l r =>
    refine (hbelow l (by simp [Expr.parts])).bind fun a => ?_
    split
    · exact hbelow r (by simp [Expr.parts])
    · exact .pure _
  | ternary c t o =>
    refine (hbelow c (by simp [Expr.parts])).bind fun a => ?_
    split
    · exact hbelow t (by simp [Expr.parts])
    · exact hbelow o (by simp [Expr.parts])
  | elvis c o =>
    refine (hbelow c (by simp [Expr.parts])).bind fun a => ?_
    split
    · exact .pure _
    · exact hbelow o (by simp [Expr.parts])
  | _ => cases hself

theorem step_decides {err : EvalError} (he : e.IsTotal) (hglobals : env.globals = .empty)
    (hstrict : env.options.strictVariables = false) (hlazy : context.HasNoLazy) {c : Expr → Prop}
    (hbelow : ∀ p ∈ e.parts, (below env context p).Decides err (c p)) :
    (step host below env context e).Decides err (∀ p ∈ e.parts, c p) := by
  have hself := he e e.mem_nodes_self
  cases e with
  | literal value => exact (Eval.Decides.pure _).congr (by simp [Expr.parts])
  | «variable» name =>
    obtain ⟨v?, hresolve⟩ := resolve_eq_pure host below name hlazy
    rw [step, hglobals, hresolve, pure_bind, hstrict]
    cases v? <;> exact (Eval.Decides.pure _).congr (by simp [Expr.parts])
  | list es => exact (Eval.Decides.mapM hbelow).map _
  | comparison op l r =>
    have hvalue (a b : Value) :
        (Eval.ofExcept (comparison op a b) : Eval σ Value).Decides err True := by
      obtain ⟨v, hv⟩ := exists_comparison_eq_ok hself a b
      rw [hv]
      exact .pure v
    exact ((hbelow l (by simp [Expr.parts])).bind fun a =>
      (hbelow r (by simp [Expr.parts])).bind fun b => hvalue a b).congr (by simp [Expr.parts])
  | logical op l r =>
    exact ((hbelow l (by simp [Expr.parts])).bind fun a =>
      (hbelow r (by simp [Expr.parts])).map _).congr (by simp [Expr.parts])
  | _ => cases hself

/-! ### All levels -/

/-- By induction on the levels left. -/
theorem evalAt_never_depthExceeded (host : Host σ) {levels depth : Nat} (he : e.IsCallFree)
    (hglobals : env.globals = .empty) (hlazy : context.HasNoLazy)
    (hheight : e.height + depth ≤ env.options.maxDepth)
    (hlevels : env.options.maxDepth ≤ levels + depth) :
    (evalAt host levels depth env context e).Never EvalError.IsDepthExceeded := by
  have hpos := e.height_pos
  induction levels generalizing depth e with
  | zero => omega
  | succ levels ih =>
    rw [evalAt_of_lt (by omega)]
    refine step_never_depthExceeded he hglobals hlazy fun p hp => ?_
    have hheight' : e.height ≤ e.height - 1 + 1 := Nat.le_of_eq (Nat.sub_add_cancel hpos).symm
    have hpart : p.height ≤ e.height - 1 :=
      (Expr.height_le_succ_iff he.isClosure_eq_false).1 hheight' p hp
    exact ih (he.part hp) (by omega) (by omega) p.height_pos

/-- By induction on the levels left; parts are one level further down, and at least one node less
high. -/
theorem evalAt_decides (host : Host σ) (levels depth : Nat) (he : e.IsTotal)
    (hglobals : env.globals = .empty) (hstrict : env.options.strictVariables = false)
    (hlazy : context.HasNoLazy)
    (hlevels : env.options.maxDepth ≤ levels + depth) :
    (evalAt host levels depth env context e).Decides (.depthExceeded env.options.maxDepth)
      (e.height + depth ≤ env.options.maxDepth) := by
  have hpos := e.height_pos
  induction levels generalizing depth e with
  | zero =>
    rw [evalAt_of_le (by omega)]
    exact Eval.Decides.throw.congr (iff_of_false id (by omega))
  | succ levels ih =>
    rcases Nat.lt_or_ge depth env.options.maxDepth with hlt | hge
    · rw [evalAt_of_lt hlt]
      refine (step_decides he hglobals hstrict hlazy fun p hp =>
        ih (depth + 1) (he.part hp) (by omega) p.height_pos).congr ?_
      have hparts := Expr.height_le_succ_iff he.isClosure_eq_false
        (n := env.options.maxDepth - depth - 1)
      have hheight : e.height + depth ≤ env.options.maxDepth ↔
          e.height ≤ env.options.maxDepth - depth - 1 + 1 := by omega
      rw [hheight, hparts]
      exact forall₂_congr fun p _ => by omega
    · rw [evalAt_of_le hge]
      exact Eval.Decides.throw.congr (iff_of_false id (by omega))

end

/-- The limit of depth is exact: without closures, calls and member accesses what is not higher than
the limit does not come to it; what is made of total nodes has a value if and only if it is not
higher, and fails with the error of the limit otherwise.  A counter that is shared by evaluations is
left as it was by each of them, so that all of them see the full limit. -/
theorem depth_limit_exact (host : Host σ) {env : Environment} {context : Context}
    (hglobals : env.globals = .empty) (hlazy : context.HasNoLazy) :
    (∀ e : Expr, e.IsCallFree → e.height ≤ env.options.maxDepth → ∀ w n,
      ((evaluate host env context e).runIn w).1 ≠ .error (.depthExceeded n)) ∧
    (env.options.strictVariables = false → ∀ e : Expr, e.IsTotal → ∀ w,
      ((∃ v, ((evaluate host env context e).runIn w).1 = .ok v) ↔
        e.height ≤ env.options.maxDepth) ∧
      (env.options.maxDepth < e.height → ((evaluate host env context e).runIn w).1 =
        .error (.depthExceeded env.options.maxDepth))) ∧
    (∀ (s : Scene) (e : Expr) (depth : Nat) (w : World σ),
      ((evaluateCounted host s.environment s.context e).runIn (w.beside depth)).2.state.2 =
        depth) ∧
    ∀ (es : List (Scene × Expr)) (w : World σ),
      (inTurn (fun s e => evaluateCounted host s.environment s.context e) es (w.beside 0)).1 =
        (inTurn (fun s e => evaluate host s.environment s.context e) es w).1 := by
  refine ⟨fun e he hheight w n herror => ?_, fun hstrict e he w => ?_, fun s e depth w => ?_,
    fun es w => ?_⟩
  · rw [runIn_evaluate] at herror
    exact evalAt_never_depthExceeded host he hglobals hlazy hheight (maxDepth_le_levels w env) w _
      herror ⟨n, rfl⟩
  · obtain ⟨hvalue, hfails⟩ := evalAt_decides host (w.levels env) 0 he hglobals hstrict hlazy
      (maxDepth_le_levels w env) w
    rw [runIn_evaluate]
    refine ⟨⟨fun ⟨v, hv⟩ => Nat.le_of_not_lt fun h => ?_, hvalue⟩, fun h => hfails (Nat.not_le.2 h)⟩
    exact nomatch hv.symm.trans (hfails (Nat.not_le.2 h))
  · rw [runIn_evaluateCounted]
    rfl
  · rw [inTurn_evaluateCounted]

/-- A variable, and a limit of two levels. -/
def shallowScene : Scene where
  environment := ⟨.empty, none, { maxDepth := 2 }⟩
  context := .ofFields [("x", .boolean true)]

theorem hasNoLazy_shallowScene : shallowScene.context.HasNoLazy := by
  intro name lazy h
  rw [shallowScene, Context.get?_ofFields, lookup_cons_eq_ite] at h
  split at h <;> cases h

/-- A comparison, which is two nodes high. -/
def sameXs : Expr := .comparison .equal (.variable "x") (.variable "x")

/-- A quotient, which is as high, and fails since it is none of numbers. -/
def quotientOfXs : Expr := .arithmetic .divide (.variable "x") (.variable "x")

/-- At a limit of two levels the comparison has a value, and a list of it is too high.  Behind that
error a counter is at zero again. -/
theorem depth_limit_exact_of_two :
    let run := evaluate applyingHost shallowScene.environment shallowScene.context
    let start : World Unit := ⟨(), #[]⟩
    let scenes := [(shallowScene, Expr.list [sameXs]), (shallowScene, sameXs)]
    shallowScene.environment.globals = .empty ∧ shallowScene.context.HasNoLazy ∧
      quotientOfXs.IsCallFree ∧ sameXs.IsTotal ∧ (Expr.list [sameXs]).IsTotal ∧
      (∀ n, ((run quotientOfXs).runIn start).1 ≠ .error (.depthExceeded n)) ∧
      (∃ v, ((run sameXs).runIn start).1 = .ok v) ∧
      ((run (.list [sameXs])).runIn start).1 = .error (.depthExceeded 2) ∧
      (inTurn (fun s e => evaluateCounted applyingHost s.environment s.context e) scenes
          (start.beside 0)).1 =
        (inTurn (fun s e => evaluate applyingHost s.environment s.context e) scenes start).1 := by
  obtain ⟨hfree, htotal, -, hturn⟩ :=
    depth_limit_exact applyingHost (rfl : shallowScene.environment.globals = .empty)
      hasNoLazy_shallowScene
  have hsame : sameXs.IsTotal := by decide
  have hlist : (Expr.list [sameXs]).IsTotal := by decide
  have hquotient : quotientOfXs.IsCallFree := by decide
  refine ⟨rfl, hasNoLazy_shallowScene, hquotient, hsame, hlist, ?_, ?_, ?_, hturn _ _⟩
  · exact hfree quotientOfXs hquotient (by decide) _
  · exact (htotal rfl sameXs hsame _).1.2 (by decide)
  · exact (htotal rfl _ hlist _).2 (by decide)

end PathQuery
