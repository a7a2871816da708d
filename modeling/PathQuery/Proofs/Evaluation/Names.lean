/-
What is done to resolve a name.

* **`nameRequest`** — what is asked of the host, if anything;
* **`resolve_of_nameRequest`, `resolve_of_no_nameRequest`** — a name is resolved by asking that, or
  without the level below;
* **`Host.AnswersDirectly`** — the host answers without calling a closure, and then the level below
  does not matter;
* **`log_ne_of_resolve_eq_error`** — a name that cannot be resolved is in the log of the host.
-/
import PathQuery.Proofs.Host.Log

namespace PathQuery

variable {σ : Type}

/-- What is asked of the host to resolve a name. -/
def nameRequest (host : Host σ) (name : String) (context : Context) (globals : Globals) :
    Option (σ → HostRun σ) :=
  match context.get? name with
  | some (.deferred lazy) => some (host.force lazy)
  | some _ => none
  | none => (globals.get? name).map fun function => host.call function []

/-- Whether the course of a request calls no closure. -/
def HostRun.IsDirect : HostRun σ → Prop
  | .done _ _ => True
  | .invoke _ _ _ _ => False

/-- The host calls no closure to answer for a name. -/
def Host.AnswersDirectly (host : Host σ) (name : String) (context : Context) (globals : Globals)
    (state : σ) : Prop :=
  ∀ run ∈ nameRequest host name context globals, (run state).IsDirect

section

variable {host : Host σ} {name : String} {context : Context} {globals : Globals}

theorem resolve_of_nameRequest {run : σ → HostRun σ}
    (h : nameRequest host name context globals = some run) (below : Evaluator σ) :
    resolve host below name context globals = do return some (← request below run) := by
  unfold nameRequest at h
  unfold resolve
  split at h
  case h_1 lazy hget =>
    obtain rfl := Option.some.inj h
    rw [hget]
    rfl
  case h_2 => exact absurd h (by simp)
  case h_3 hget =>
    obtain ⟨function, hfunction, rfl⟩ := Option.map_eq_some_iff.1 h
    simp only [hget, hfunction]

theorem resolve_of_no_nameRequest (h : nameRequest host name context globals = none) :
    ∃ found, ∀ below, resolve host below name context globals = pure found := by
  unfold nameRequest at h
  unfold resolve
  split at h
  case h_1 => exact absurd h (by simp)
  case h_2 v hlazy hget =>
    refine ⟨some v, fun below => ?_⟩
    -- A value that is not deferred is forced without the host.
    have hforce : force host below v = pure v := by
      cases v with
      | deferred lazy => exact absurd rfl (hlazy lazy)
      | _ => rfl
    simp only [hget, hforce]
    rfl
  case h_3 hget =>
    have hglobal : globals.get? name = none := Option.map_eq_none_iff.1 h
    refine ⟨if name = contextAlias then some (.object context.toFields) else none, fun below => ?_⟩
    simp only [hget, hglobal]

/-- An unknown name is unknown to every level, and leaves the world as it is. -/
theorem resolve_eq_none {below : Evaluator σ} {w w' : World σ}
    (h : (resolve host below name context globals).runIn w = (.ok none, w'))
    (below' : Evaluator σ) :
    (resolve host below' name context globals).runIn w = (.ok none, w) := by
  cases hrequest : nameRequest host name context globals with
  | none =>
    obtain ⟨found, hfound⟩ := resolve_of_no_nameRequest hrequest
    rw [hfound, Eval.runIn_pure] at h
    rw [hfound, Eval.runIn_pure, (Prod.mk.inj h).1]
  | some run =>
    rw [resolve_of_nameRequest hrequest] at h
    obtain ⟨v, w₁, -, hlast⟩ := Eval.runIn_bind_eq_ok_iff.1 h
    cases hlast

/-- Without closures the level below does not matter. -/
theorem resolve_congr {w : World σ} (h : host.AnswersDirectly name context globals w.state)
    (below below' : Evaluator σ) :
    (resolve host below name context globals).runIn w =
      (resolve host below' name context globals).runIn w := by
  cases hrequest : nameRequest host name context globals with
  | none =>
    obtain ⟨found, hfound⟩ := resolve_of_no_nameRequest hrequest
    rw [hfound, hfound]
  | some run =>
    have hdirect : (run w.state).IsDirect := h run hrequest
    have hsame : (request below run).runIn w = (request below' run).runIn w := by
      change (Eval.ofRun _ (run w.state)).runIn w = (Eval.ofRun _ (run w.state)).runIn w
      -- The course ends at once, so neither level is asked.
      cases hrun : run w.state with
      | done answer state => rw [Eval.runIn_ofRun_done, Eval.runIn_ofRun_done]
      | invoke closure args state resume => rw [hrun] at hdirect; exact hdirect.elim
    rw [resolve_of_nameRequest hrequest, resolve_of_nameRequest hrequest, Eval.runIn_bind,
      Eval.runIn_bind, hsame]

end

/-! ### Logs -/

theorem HostRun.isDirect_logged (run : HostRun σ) (log : List HostCall) :
    (run.logged log).IsDirect ↔ run.IsDirect := by
  cases run <;> rfl

variable {host : Host σ} {name : String} {context : Context} {globals : Globals}

/-- What a host with a log is asked, is asked of the host. -/
theorem nameRequest_logged {run : σ × List HostCall → HostRun (σ × List HostCall)}
    (h : nameRequest host.logged name context globals = some run) :
    ∃ run' entry, nameRequest host name context globals = some run' ∧
      ∀ s, run s = (run' s.1).logged (s.2 ++ [entry]) := by
  unfold nameRequest at h ⊢
  split at h
  case h_1 lazy hget =>
    obtain rfl := Option.some.inj h
    exact ⟨host.force lazy, .force lazy, rfl, fun s => rfl⟩
  case h_2 => exact absurd h (by simp)
  case h_3 hget =>
    obtain ⟨function, hfunction, rfl⟩ := Option.map_eq_some_iff.1 h
    exact ⟨host.call function [], .call function [], by rw [hfunction]; rfl, fun s => rfl⟩

theorem Host.AnswersDirectly.logged {s : σ × List HostCall}
    (h : host.AnswersDirectly name context globals s.1) :
    host.logged.AnswersDirectly name context globals s := by
  intro run hrun
  obtain ⟨run', entry, hrequest, hlogged⟩ := nameRequest_logged hrun
  rw [hlogged, HostRun.isDirect_logged]
  exact h run' hrequest

/-- A name that cannot be resolved has made the host do something. -/
theorem log_ne_of_resolve_eq_error {below : Evaluator (σ × List HostCall)}
    (hbelow : below.Keeps (logOrder σ)) {w w' : World (σ × List HostCall)} {e : EvalError}
    (h : (resolve host.logged below name context globals).runIn w = (.error e, w')) :
    w'.log ≠ w.log := by
  cases hrequest : nameRequest host.logged name context globals with
  | none =>
    obtain ⟨found, hfound⟩ := resolve_of_no_nameRequest hrequest
    rw [hfound, Eval.runIn_pure] at h
    exact absurd h (by simp)
  | some run =>
    obtain ⟨run', entry, -, hlogged⟩ := nameRequest_logged hrequest
    have hlog := log_request hbelow (w := w) (hlogged w.state)
    rw [resolve_of_nameRequest hrequest] at h
    obtain hfails | ⟨v, w₁, -, hlast⟩ := Eval.runIn_bind_eq_error_iff.1 h
    · intro heq
      -- The log is longer by the entry of the request at least.
      have hlength := hlog.length_le
      rw [hfails, heq, List.length_append, List.length_singleton] at hlength
      omega
    · cases hlast

end PathQuery
