/-
Logs of what the host is asked.

* **`HostCall`** — one thing that is asked;
* **`Host.logged`** — a host that keeps a log beside its state;
* **`Host.keeps_logged`** — the log only grows;
* **`log_request`** — a request is in the log, with what closures ask meanwhile behind it.

Design notes: the log is part of the state, so that two runs that end in the same world have asked
the same in the same order.
-/
import PathQuery.Proofs.Evaluation.Keeps

namespace PathQuery

variable {σ : Type}

/-- Something that the host is asked. -/
inductive HostCall where
  | call (function : Nat) (args : List Value)
  | force (lazy : LazyRef)
  | intercept (interceptor : Nat) (v : Value)
  | hasMethod (object : HostObject) (name : String)
  | callMethod (object : HostObject) (name : String) (args : List Value)
  | property (object : HostObject) (name : String)

/-- The course of a request with a log beside the state. -/
def HostRun.logged : HostRun σ → List HostCall → HostRun (σ × List HostCall)
  | .done answer state, log => .done answer (state, log)
  | .invoke closure args state resume, log =>
    .invoke closure args (state, log) fun answer s => (resume answer s.1).logged s.2

/-- A host that logs what it is asked before it answers. -/
def Host.logged (host : Host σ) : Host (σ × List HostCall) where
  call function args s := (host.call function args s.1).logged (s.2 ++ [.call function args])
  force lazy s := (host.force lazy s.1).logged (s.2 ++ [.force lazy])
  intercept interceptor v s :=
    (host.intercept interceptor v s.1).logged (s.2 ++ [.intercept interceptor v])
  hasMethod object name s :=
    let (answer, state) := host.hasMethod object name s.1
    (answer, state, s.2 ++ [.hasMethod object name])
  callMethod object name args s :=
    (host.callMethod object name args s.1).logged (s.2 ++ [.callMethod object name args])
  property object name s :=
    let (answer, state) := host.property object name s.1
    (answer, state, s.2 ++ [.property object name])

/-- The log of a world. -/
def World.log (w : World (σ × List HostCall)) : List HostCall := w.state.2

/-- A later world has a longer log. -/
def logOrder (σ : Type) : WorldOrder (σ × List HostCall) where
  rel w w' := w.log <+: w'.log
  refl _ := List.prefix_refl _
  trans := List.IsPrefix.trans
  closure _ _ := List.prefix_refl _

theorem HostRun.keeps_logged (run : HostRun σ) : ∀ {log : List HostCall}
    {w : World (σ × List HostCall)}, w.log <+: log → (run.logged log).Keeps (logOrder σ) w := by
  induction run with
  | done answer state => exact fun h => h
  | invoke closure args state resume ih =>
    intro log w h
    exact ⟨h, fun answer w' _ => ih answer w'.state.1 (List.prefix_refl w'.state.2)⟩

/-- The log only grows. -/
theorem Host.keeps_logged (host : Host σ) : host.logged.Keeps (logOrder σ) where
  call _ _ _ := HostRun.keeps_logged _ (List.prefix_append _ _)
  force _ _ := HostRun.keeps_logged _ (List.prefix_append _ _)
  intercept _ _ _ := HostRun.keeps_logged _ (List.prefix_append _ _)
  hasMethod _ _ _ := List.prefix_append _ _
  callMethod _ _ _ _ := HostRun.keeps_logged _ (List.prefix_append _ _)
  property _ _ _ := List.prefix_append _ _

/-- What a request asks is in the log behind what was there before. -/
theorem log_request {below : Evaluator (σ × List HostCall)} (hbelow : below.Keeps (logOrder σ))
    {run : σ × List HostCall → HostRun (σ × List HostCall)} {w : World (σ × List HostCall)}
    {course : HostRun σ} {entry : HostCall}
    (h : run w.state = course.logged (w.log ++ [entry])) :
    w.log ++ [entry] <+: ((request below run).runIn w).2.log := by
  -- The course does not look at the world it starts in, so it may start with the entry in the log.
  let asked : World (σ × List HostCall) := { w with state := (w.state.1, w.log ++ [entry]) }
  have hsame : (request below run).runIn w =
      (Eval.ofRun (callClosure below) (course.logged (w.log ++ [entry]))).runIn asked := by
    change (Eval.ofRun (callClosure below) (run w.state)).runIn w = _
    rw [h]
    exact Eval.runIn_ofRun_congr rfl
  rw [hsame]
  exact Eval.Keeps.ofRun (callClosure_keeps hbelow) (HostRun.keeps_logged course
    (w := asked) (List.prefix_refl _))

end PathQuery
