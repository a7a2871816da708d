/-
What evaluations are composed of.

* **`Composed`** — evaluations that are sequences of calls of the level below, calls of closures,
  requests to the host and new closures;
* **`composed_access`, `composed_select`** — a member access and a selector are such evaluations;
* **`composed_step`** — and so is a whole level.

Design notes: an evaluation is taken as a function of the level below, which runs the parts of a
node and the bodies of closures.  What passes through sequences and holds of these few steps holds
of all nodes, by induction on `Composed`.
-/
import PathQuery.Proofs.Evaluation.Runs

namespace PathQuery

variable {σ : Type}

/-! ### Steps -/

/-- What a host is asked to run. -/
inductive Host.Asks (host : Host σ) : (σ → HostRun σ) → Prop where
  | call (function : Nat) (args : List Value) : host.Asks (host.call function args)
  | force (lazy : LazyRef) : host.Asks (host.force lazy)
  | intercept (interceptor : Nat) (v : Value) : host.Asks (host.intercept interceptor v)
  | callMethod (object : HostObject) (name : String) (args : List Value) :
      host.Asks (host.callMethod object name args)

/-- An evaluation, as a function of the level below, is a sequence of the steps that there are. -/
inductive Composed (host : Host σ) : {α : Type} → (Evaluator σ → Eval σ α) → Prop where
  | pure {α : Type} (a : α) : Composed host fun _ => Pure.pure a
  | throw {α : Type} (e : EvalError) : Composed host fun _ => (MonadExcept.throw e : Eval σ α)
  | bind {α β : Type} {m : Evaluator σ → Eval σ α} {f : Evaluator σ → α → Eval σ β}
      (hm : Composed host m) (hf : ∀ a, Composed host fun below => f below a) :
      Composed host fun below => m below >>= f below
  | eval (env : Environment) (context : Context) (e : Expr) :
      Composed host fun below => below env context e
  | callClosure (index : Nat) (args : List Value) :
      Composed host fun below => callClosure below index args
  | request {run : σ → HostRun σ} (h : host.Asks run) : Composed host fun below => request below run
  | hasMethod (object : HostObject) (name : String) :
      Composed host fun _ => Eval.onState (host.hasMethod object name)
  | property (object : HostObject) (name : String) :
      Composed host fun _ => Eval.onState (host.property object name)
  | newClosure (c : Closure) : Composed host fun _ => Eval.newClosure c

namespace Composed

variable {host : Host σ} {α β : Type}

theorem mapM {f : Evaluator σ → α → Eval σ β} (hf : ∀ a, Composed host fun below => f below a)
    (as : List α) : Composed host fun below => as.mapM (f below) := by
  induction as with
  | nil => exact .pure _
  | cons a as ih =>
    simp only [List.mapM_cons]
    exact (hf a).bind fun _ => ih.bind fun _ => .pure _

theorem anyM {f : Evaluator σ → α → Eval σ Bool} (hf : ∀ a, Composed host fun below => f below a)
    (as : List α) : Composed host fun below => as.anyM (f below) := by
  induction as with
  | nil => exact .pure _
  | cons a as ih =>
    refine (hf a).bind fun b => ?_
    cases b with
    | true => exact .pure _
    | false => exact ih

theorem allM {f : Evaluator σ → α → Eval σ Bool} (hf : ∀ a, Composed host fun below => f below a)
    (as : List α) : Composed host fun below => as.allM (f below) := by
  induction as with
  | nil => exact .pure _
  | cons a as ih =>
    refine (hf a).bind fun b => ?_
    cases b with
    | true => exact ih
    | false => exact .pure _

theorem ofExcept (r : Except EvalError α) :
    Composed host fun _ => (Eval.ofExcept r : Eval σ α) := by
  cases r with
  | ok a => exact .pure a
  | error e => exact .throw e

end Composed

/-! ### Values -/

section

variable {host : Host σ}

theorem composed_callFunction (f : FunctionRef) (args : List Value) :
    Composed host fun below => callFunction host below f args := by
  cases f with
  | host id => exact .request (.call id args)
  | closure index => exact .callClosure index args

theorem composed_force (v : Value) : Composed host fun below => force host below v := by
  cases v with
  | deferred lazy => exact .request (.force lazy)
  | _ => exact .pure _

theorem composed_intercept (env : Environment) (v : Value) :
    Composed host fun below => intercept host below env v := by
  simp only [intercept]
  cases env.interceptor with
  | some interceptor => exact .request (.intercept interceptor v)
  | none => exact .pure _

theorem composed_resolve (name : String) (context : Context) (globals : Globals) :
    Composed host fun below => resolve host below name context globals := by
  simp only [resolve]
  cases context.get? name with
  | some v => exact (composed_force v).bind fun _ => .pure _
  | none =>
    cases globals.get? name with
    | some function => exact (Composed.request (.call function [])).bind fun _ => .pure _
    | none => exact .pure _

/-! ### Members -/

theorem composed_useEntry (member : String) (args : Option (List Value)) (v : Value) :
    Composed host fun below => useEntry host below member args v := by
  cases v with
  | function f =>
    cases args with
    | some args => exact composed_callFunction f args
    | none => exact .pure _
  | deferred lazy => exact .request (.force lazy)
  | _ =>
    cases args with
    | some args => exact .throw _
    | none => exact .pure _

section

variable {select : Evaluator σ → Collection.Select σ}
  (hselect : ∀ method selector item, Composed host fun below => select below method selector item)
include hselect

theorem composed_selected (method : String) (args : List Value) (item : Value) :
    Composed host fun below => Collection.selected (select below) method args item := by
  cases args with
  | nil => exact .pure _
  | cons selector args => exact hselect method selector item

theorem composed_numbers (method : String) (items args : List Value) :
    Composed host fun below => Collection.numbers (select below) method items args := by
  refine .mapM (fun item => (composed_selected hselect method args item).bind fun v => ?_) items
  cases v.toNumber? with
  | some n => exact .pure _
  | none => exact .throw _

/-- The methods of arrays, or null for a name that is none. -/
theorem composed_arrayMethod? (name : String) (items args : List Value) :
    Composed host fun below =>
      (Collection.arrayMethod? (select below) name items args).getD (Pure.pure .null) := by
  have hflag : ∀ method item, Composed host fun below => (do
      return (← Collection.selected (select below) method args item).isTruthy) :=
    fun method item => (composed_selected hselect method args item).bind fun _ => .pure _
  fun_cases Collection.arrayMethod? (σ := σ) (fun _ _ _ => pure .null) name items args
  -- Only the methods that apply a selector, or may fail, are more than an answer.
  case case7 | case8 =>
    cases args with
    | nil => exact .throw _
    | cons selector args => exact (Composed.mapM (hselect _ selector) items).bind fun _ => .pure _
  case case9 =>
    cases args with
    | nil => exact .throw _
    | cons selector args =>
      cases selector with
      | string member =>
        exact (Composed.mapM (hselect _ (.string member)) items).bind fun _ => .pure _
      | _ => exact .throw _
  case case10 => exact (Composed.anyM (hflag "any") items).bind fun _ => .pure _
  case case11 => exact (Composed.allM (hflag "all") items).bind fun _ => .pure _
  case case12 => exact (composed_numbers hselect "sum" items args).bind fun _ => .pure _
  case case15 =>
    refine (composed_numbers hselect "avg" items args).bind fun ns => ?_
    cases Collection.mean ns with
    | some x => exact .pure _
    | none => exact .pure _
  case case17 =>
    refine (Composed.mapM (composed_selected hselect "sort" args) items).bind fun keys => ?_
    cases Collection.sortByKey (items.zip keys) with
    | some entries => exact .pure _
    | none => exact .throw _
  case case21 =>
    simp only [Collection.arrayMethod?]
    exact .pure _
  all_goals exact .pure _

end

theorem composed_access {select : Evaluator σ → Collection.Select σ}
    (hselect : ∀ method selector item, Composed host fun below => select below method selector item)
    (target : Value) (member : String) (args : Option (List Value)) :
    Composed host fun below => access host below (select below) target member args := by
  cases target with
  | array items =>
    simp only [access]
    cases (readIndex? member.toList).bind (items[·]?) with
    | some entry => exact composed_useEntry member args entry
    | none => exact composed_arrayMethod? hselect member items _
  | object fields =>
    simp only [access]
    cases fields.lookup member with
    | some entry => exact composed_useEntry member args entry
    | none => exact .pure _
  | host object =>
    refine (Composed.hasMethod object member).bind fun isMethod => ?_
    cases isMethod with
    | true => exact .request (.callMethod object member _)
    | false =>
      refine (Composed.property object member).bind fun found => ?_
      cases found with
      | some entry => exact composed_useEntry member args entry
      | none => exact .pure _
  | _ => exact .throw _

theorem composed_readMember (env : Environment) (item : Value) (member : String) :
    Composed host fun below => readMember host below env item member :=
  (composed_force item).bind fun v => (composed_intercept env v).bind fun target =>
    composed_access (fun _ _ _ => .pure _) target member none

theorem composed_select (env : Environment) (method : String) (selector item : Value) :
    Composed host fun below => select host below env method selector item := by
  cases selector with
  | function f => exact composed_callFunction f [item]
  | string member => exact composed_readMember env item member
  | _ => exact .throw _

/-! ### Levels -/

theorem composed_memberObject (env : Environment) (context : Context) (object : Expr) :
    Composed host fun below => memberObject host below env context object :=
  (Composed.eval env context object).bind fun v => composed_force v

/-- A member step behind its object and its arguments. -/
theorem composed_interceptAccess (env : Environment) (target : Value) (name : String)
    (args : Option (List Value)) :
    Composed host fun below => (do
      let target ← intercept host below env target
      access host below (select host below env) target name args) :=
  (composed_intercept env target).bind fun target =>
    composed_access (composed_select env) target name args

/-- What two operands come to. -/
theorem composed_operands {α : Type} (env : Environment) (context : Context) (l r : Expr)
    {f : Evaluator σ → Value → Value → Eval σ α}
    (hf : ∀ a b, Composed host fun below => f below a b) :
    Composed host fun below => (do
      let a ← below env context l
      let b ← below env context r
      f below a b) :=
  (Composed.eval env context l).bind fun a => (Composed.eval env context r).bind fun b => hf a b

/-- A level is composed of the steps that there are, node by node. -/
theorem composed_step (env : Environment) (context : Context) (e : Expr) :
    Composed host fun below => step host below env context e := by
  cases e with
  | literal v => exact .pure _
  | «variable» name =>
    refine (composed_resolve name context env.globals).bind fun found => ?_
    cases found with
    | some v => exact .pure _
    | none =>
      cases env.options.strictVariables with
      | true => exact .throw _
      | false => exact .pure _
  | list es => exact (Composed.mapM (fun e => .eval env context e) es).bind fun _ => .pure _
  | arguments es => exact (Composed.mapM (fun e => .eval env context e) es).bind fun _ => .pure _
  | member object name nullSafe =>
    refine (composed_memberObject env context object).bind fun target => ?_
    cases nullSafe && target.isNull with
    | true => exact .pure _
    | false => exact composed_interceptAccess env target name none
  | memberCall object name args nullSafe =>
    refine (composed_memberObject env context object).bind fun target => ?_
    cases nullSafe && target.isNull with
    | true => exact .pure _
    | false =>
      exact (Composed.mapM (fun e => .eval env context e) args).bind fun args =>
        composed_interceptAccess env target name (some args)
  | call name args =>
    simp only [step]
    cases env.globals.get? name with
    | some function =>
      exact (Composed.mapM (fun e => .eval env context e) args).bind fun args =>
        .request (.call function args)
    | none => exact .throw _
  | arithmetic op l r => exact composed_operands env context l r fun _ _ => .ofExcept _
  | comparison op l r => exact composed_operands env context l r fun _ _ => .ofExcept _
  | logical op l r => exact composed_operands env context l r fun _ _ => .pure _
  | coalesce l r =>
    refine (Composed.eval env context l).bind fun v => ?_
    cases v.isNull with
    | true => exact .eval env context r
    | false => exact .pure _
  | ternary c t o =>
    refine (Composed.eval env context c).bind fun v => ?_
    cases v.isTruthy with
    | true => exact .eval env context t
    | false => exact .eval env context o
  | elvis c o =>
    refine (Composed.eval env context c).bind fun v => ?_
    cases v.isTruthy with
    | true => exact .pure _
    | false => exact .eval env context o
  | closure params body => exact (Composed.newClosure _).bind fun _ => .pure _

end

end PathQuery
