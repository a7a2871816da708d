/-
Evaluation of expressions.

`step` evaluates the node at the top of an expression; the nodes below it, and the bodies of
closures called meanwhile, are left to a parameter, which is the evaluator one level deeper.
`evalAt` ties the knot and counts the levels: at the limit of the engine at hand it fails.

* **`evaluate`** — the value of an expression, from level zero;
* **`callValue`** — a function called from outside, from level zero;
* **`resolve`** — what a name stands for.

Design notes: levels are bounded by the limits of the engines that can run, which are the one at
hand and those of the closures in the world; so `levels` is never used up before a limit is.
-/
import PathQuery.Arithmetic
import PathQuery.Collection
import PathQuery.Comparison

namespace PathQuery

variable {σ : Type}

/-- An evaluator of expressions, for any engine and variables. -/
abbrev Evaluator (σ : Type) := Environment → Context → Expr → Eval σ Value

/-- The reserved name of all variables together. -/
def contextAlias : String := "this"

/-- A result of pure code as an evaluation. -/
def Eval.ofExcept {α : Type} : Except EvalError α → Eval σ α
  | .ok a => return a
  | .error e => throw e

section Requests

variable (host : Host σ) (below : Evaluator σ)

/-! ### Requests to the host -/

/-- Calls the closure at a place in the table.  A place without one gives null. -/
def callClosure (index : Nat) (args : List Value) : Eval σ Value := do
  match (← get).closures[index]? with
  | some c => below c.environment (c.scope args) c.body
  | none => return .null

/-- Makes a request to the host. -/
def request (run : σ → HostRun σ) : Eval σ Value := do
  Eval.ofRun (callClosure below) (run (← get).state)

/-- Calls a function. -/
def callFunction (f : FunctionRef) (args : List Value) : Eval σ Value :=
  match f with
  | .host id => request below (host.call id args)
  | .closure index => callClosure below index args

/-- Computes a lazy value; any other is as it is. -/
def force : Value → Eval σ Value
  | .deferred lazy => request below (host.force lazy)
  | v => return v

/-- Passes the object of a member access to the interceptor of the engine. -/
def intercept (env : Environment) (v : Value) : Eval σ Value :=
  match env.interceptor with
  | some interceptor => request below (host.intercept interceptor v)
  | none => return v

/-! ### Names -/

/-- What a name stands for: a variable, a global called without arguments, or all variables. -/
def resolve (name : String) (context : Context) (globals : Globals) : Eval σ (Option Value) :=
  match context.get? name with
  | some v => return some (← force host below v)
  | none =>
    match globals.get? name with
    | some function => return some (← request below (host.call function []))
    | none => return if name = contextAlias then some (.object context.toFields) else none

/-! ### Members -/

/-- The value of a member that has been found: a function is called if there are arguments, a lazy
value is computed. -/
def useEntry (member : String) (args : Option (List Value)) : Value → Eval σ Value
  | .function f =>
    match args with
    | some args => callFunction host below f args
    | none => return .function f
  | .deferred lazy => request below (host.force lazy)
  | v => if args.isSome then throw (.notCallable member v.kind) else return v

/-- Whether text is an array index: digits, perhaps behind a plus sign. -/
def readIndex? : List Char → Option Nat
  | '+' :: digits => readNat? digits
  | digits => readNat? digits

/-- The member of a value.  Arrays and objects have entries before they have methods; objects of
the host have methods before they have properties.  `args` is none for a member that is not
called. -/
def access (select : Collection.Select σ) (target : Value) (member : String)
    (args : Option (List Value)) : Eval σ Value :=
  match target with
  | .array items =>
    match (readIndex? member.toList).bind (items[·]?) with
    | some entry => useEntry host below member args entry
    | none => (Collection.arrayMethod? select member items (args.getD [])).getD (return .null)
  | .object fields =>
    match fields.lookup member with
    | some entry => useEntry host below member args entry
    | none => return (Collection.objectMethod? member fields).getD .null
  | .host object => do
    if ← Eval.onState (host.hasMethod object member) then
      request below (host.callMethod object member (args.getD []))
    else
      match ← Eval.onState (host.property object member) with
      | some entry => useEntry host below member args entry
      | none => return .null
  | v => throw (.invalidMemberTarget member v.kind)

/-- Without arguments there is no selector, so nothing is selected. -/
def noSelection : Collection.Select σ := fun _ _ _ => return .null

/-- Reads a member of an element: what a selector that is a member name does. -/
def readMember (env : Environment) (item : Value) (member : String) : Eval σ Value := do
  let target ← intercept host below env (← force host below item)
  access host below noSelection target member none

/-- Applies a selector to an element: a function is called with it, a text names a member. -/
def select (env : Environment) : Collection.Select σ := fun method selector item =>
  match selector with
  | .function f => callFunction host below f [item]
  | .string member => readMember host below env item member
  | other => throw (.typeFault (.notASelector method other.kind))

/-! ### Expressions -/

/-- Evaluates the object of a member step. -/
def memberObject (env : Environment) (context : Context) (object : Expr) : Eval σ Value := do
  force host below (← below env context object)

/-- Evaluates the node at the top of an expression. -/
def step : Evaluator σ := fun env context expr =>
  match expr with
  | .literal value => return value.value
  | .variable name => do
    match ← resolve host below name context env.globals with
    | some v => return v
    | none =>
      if env.options.strictVariables then throw (.missingIdentifier name) else return .null
  | .list elements => return .array (← elements.mapM (below env context))
  | .arguments elements => return .array (← elements.mapM (below env context))
  | .member object name nullSafe => do
    let target ← memberObject host below env context object
    if nullSafe && target.isNull then return .null
    let target ← intercept host below env target
    access host below (select host below env) target name none
  | .memberCall object name arguments nullSafe => do
    let target ← memberObject host below env context object
    if nullSafe && target.isNull then return .null
    let args ← arguments.mapM (below env context)
    let target ← intercept host below env target
    access host below (select host below env) target name (some args)
  | .call name arguments => do
    match env.globals.get? name with
    | some function =>
      let args ← arguments.mapM (below env context)
      request below (host.call function args)
    | none => throw (.unknownGlobal name)
  | .arithmetic op left right => do
    let a ← below env context left
    let b ← below env context right
    Eval.ofExcept (arithmetic op a b)
  | .comparison op left right => do
    let a ← below env context left
    let b ← below env context right
    Eval.ofExcept (comparison op a b)
  | .logical op left right => do
    let a ← below env context left
    let b ← below env context right
    return .boolean <| match op with
      | .and => a.isTruthy && b.isTruthy
      | .or => a.isTruthy || b.isTruthy
  | .coalesce left right => do
    let a ← below env context left
    if a.isNull then below env context right else return a
  | .ternary condition whenTrue otherwise => do
    let c ← below env context condition
    if c.isTruthy then below env context whenTrue else below env context otherwise
  | .elvis condition otherwise => do
    let c ← below env context condition
    if c.isTruthy then return c else below env context otherwise
  | .closure params body => do
    return .function (← Eval.newClosure ⟨params, body, context, env⟩)

end Requests

/-! ### Levels -/

/-- The evaluator at a level; `levels` is the number of further levels it may use. -/
def evalAt (host : Host σ) : (levels depth : Nat) → Evaluator σ
  | 0, _ => fun env _ _ => throw (.depthExceeded env.options.maxDepth)
  | levels + 1, depth => fun env context expr =>
    if env.options.maxDepth ≤ depth then throw (.depthExceeded env.options.maxDepth)
    else step host (evalAt host levels (depth + 1)) env context expr

/-- Enough levels for an engine and the closures of a world. -/
def World.levels (w : World σ) (env : Environment) : Nat :=
  w.closures.foldl (fun n c => max n c.environment.options.maxDepth) env.options.maxDepth

/-- Runs something with an evaluator for level `0`. -/
def atTop {α : Type} (host : Host σ) (env : Environment) (run : Evaluator σ → Eval σ α) :
    Eval σ α := do
  run (evalAt host ((← get).levels env) 0)

/-- The value of an expression. -/
def evaluate (host : Host σ) (env : Environment) (context : Context) (expr : Expr) : Eval σ Value :=
  atTop host env fun below => below env context expr

/-- Calls a function from outside of any evaluation. -/
def callValue (host : Host σ) (f : FunctionRef) (args : List Value) : Eval σ Value :=
  atTop host default fun below => callFunction host below f args

/-- What a name stands for, asked from outside of any evaluation. -/
def resolveName (host : Host σ) (env : Environment) (name : String) (context : Context) :
    Eval σ (Option Value) :=
  atTop host env fun below => resolve host below name context env.globals

/-- Computes a lazy value from outside of any evaluation. -/
def forceValue (host : Host σ) (v : Value) : Eval σ Value :=
  atTop host default fun below => force host below v

end PathQuery
