/-
The host of an evaluation and the world it runs in.

The host owns functions, lazy values, objects and interceptors, and a state of any type `σ` that
its answers may read and change.  A request to the host is a `HostRun`: it ends with an answer, or
it first calls a closure and goes on with what that gave.

* **`Host`** — what the host does with each kind of request;
* **`Environment`** — what all evaluations of an engine share: globals, interceptor and options;
* **`Closure`** — an inline function with the variables around it;
* **`World`** — the state of the host and the closures made so far;
* **`Eval`** — an evaluation: it changes the world, also when it fails.

Design notes: a closure is named by its place in the table of the world, so a value never holds
an expression and comparing functions is comparing places.
-/
import PathQuery.Context
import PathQuery.EvalError
import PathQuery.Globals

namespace PathQuery

/-! ### Engines -/

/-- Limits and switches of an engine. -/
structure EngineOptions where
  maxDepth : Nat := 128
  strictVariables : Bool := false
deriving DecidableEq, Repr, Inhabited

/-- What all evaluations of an engine share.  The interceptor, if there is one, is given by its
number at the host. -/
structure Environment where
  globals : Globals
  interceptor : Option Nat
  options : EngineOptions
deriving DecidableEq, Repr, Inhabited

/-- An inline function: its parameters and body, and the variables and engine where it was
written. -/
structure Closure where
  params : List String
  body : Expr
  captured : Context
  environment : Environment
deriving Inhabited

/-- Sets the parameters in turn; a missing argument is null. -/
def Context.bind (c : Context) : List String → List Value → Context
  | [], _ => c
  | param :: params, args => (c.insert param (args.headD .null)).bind params args.tail

/-- The variables inside the body of a closure: the parameters on top of the captured ones. -/
def Closure.scope (c : Closure) (args : List Value) : Context :=
  c.captured.nested.bind c.params args

/-! ### The host -/

/-- The course of one request to the host. -/
inductive HostRun (σ : Type) where
  | done (answer : Except EvalError Value) (state : σ)
  | invoke (closure : Nat) (args : List Value) (state : σ)
      (resume : Except EvalError Value → σ → HostRun σ)

/-- What the host does. -/
structure Host (σ : Type) where
  /-- Calls a function. -/
  call : (function : Nat) → (args : List Value) → σ → HostRun σ
  /-- Computes a lazy value. -/
  force : LazyRef → σ → HostRun σ
  /-- Passes the object of a member access to an interceptor. -/
  intercept : (interceptor : Nat) → Value → σ → HostRun σ
  /-- Whether an object has a method. -/
  hasMethod : HostObject → String → σ → Bool × σ
  /-- Calls a method of an object. -/
  callMethod : HostObject → String → (args : List Value) → σ → HostRun σ
  /-- Reads a property of an object. -/
  property : HostObject → String → σ → Option Value × σ

/-! ### Evaluations -/

/-- The state of the host and the closures made so far. -/
structure World (σ : Type) where
  state : σ
  closures : Array Closure

/-- An evaluation: a value or an error, and a new world either way. -/
abbrev Eval (σ : Type) (α : Type) := ExceptT EvalError (StateM (World σ)) α

namespace Eval

variable {σ α : Type}

/-- Runs an evaluation in a world. -/
def runIn (m : Eval σ α) (w : World σ) : Except EvalError α × World σ := (m.run).run w

/-- Reads and changes the state of the host. -/
def onState (f : σ → α × σ) : Eval σ α := do
  let w ← get
  let (a, state) := f w.state
  set { w with state := state }
  return a

/-- Keeps a new closure. -/
def newClosure (c : Closure) : Eval σ FunctionRef := do
  let w ← get
  set { w with closures := w.closures.push c }
  return .closure w.closures.size

/-- Runs a request to the host; `invoke` calls a closure. -/
def ofRun (invoke : Nat → List Value → Eval σ Value) : HostRun σ → Eval σ Value
  | .done answer state => do
    modify fun w => { w with state := state }
    match answer with
    | .ok v => return v
    | .error e => throw e
  | .invoke closure args state resume => do
    modify fun w => { w with state := state }
    let answer ← (observing (invoke closure args) : Eval σ (Except EvalError Value))
    ofRun invoke (resume answer (← get).state)
where
  /-- The outcome of an evaluation as a value. -/
  observing (m : Eval σ Value) : Eval σ (Except EvalError Value) :=
    ExceptT.mk fun w => let (r, w) := m.runIn w; (.ok r, w)

end Eval

end PathQuery
