/-
One host on both sides of a simulation.

* **`World.Related`** — the same state of the host, and closures that are related place by place;
* **`Host.PassesOn`** — what a host does if a closure that it calls fails in a certain way: it fails
  in that way, too;
* **`Host.follows_self`** — a host follows itself if it passes on what cuts off;
* **`World.levels_le_of_related`** — how many levels worlds have that are related.

Design notes: the host cannot tell the two sides apart, since its state is the same and the closures
that it is given are their places.
-/
import PathQuery.Proofs.Evaluation.Simulation.Step
import PathQuery.Proofs.Host.Log

namespace PathQuery

variable {σ : Type}

/-! ### Worlds with the same state -/

/-- Worlds with the same state, and closures that are related place by place. -/
structure World.Related (R : Closure → Closure → Prop) (w w' : World σ) : Prop where
  state : w.state = w'.state
  size : w.closures.size = w'.closures.size
  closures : ∀ (i : Nat) (c c' : Closure), w.closures[i]? = some c → w'.closures[i]? = some c' →
    R c c'

namespace World.Related

variable {R : Closure → Closure → Prop} {w w' : World σ}

theorem refl (hR : ∀ c, R c c) (w : World σ) : w.Related R w where
  state := rfl
  size := rfl
  closures i c c' h h' := by
    rw [h] at h'
    exact Option.some.inj h' ▸ hR c

/-- The other way around. -/
theorem flip (h : w.Related R w') : w'.Related (fun c c' => R c' c) w where
  state := h.state.symm
  size := h.size.symm
  closures i c c' hc hc' := h.closures i c' c hc' hc

theorem withState (h : w.Related R w') (state : σ) :
    World.Related R { w with state := state } { w' with state := state } :=
  ⟨rfl, h.size, h.closures⟩

theorem push (h : w.Related R w') {c c' : Closure} (hc : R c c') :
    World.Related R { w with closures := w.closures.push c }
      { w' with closures := w'.closures.push c' } where
  state := h.state
  size := by rw [Array.size_push, Array.size_push, h.size]
  closures i d d' hd hd' := by
    rw [Array.getElem?_push] at hd hd'
    rw [← h.size] at hd'
    split at hd
    · rename_i hi
      rw [if_pos hi] at hd'
      obtain rfl := Option.some.inj hd
      obtain rfl := Option.some.inj hd'
      exact hc
    · rename_i hi
      rw [if_neg hi] at hd'
      exact h.closures i d d' hd hd'

/-- A closure has one in its place on the other side. -/
theorem exists_related (h : w.Related R w') {i : Nat} {c : Closure} (hc : w.closures[i]? = some c) :
    ∃ c', w'.closures[i]? = some c' ∧ R c c' := by
  obtain ⟨hlt, -⟩ := Array.getElem?_eq_some_iff.1 hc
  rw [h.size] at hlt
  have hc' : w'.closures[i]? = some w'.closures[i] := Array.getElem?_eq_getElem hlt
  exact ⟨_, hc', h.closures i c _ hc hc'⟩

end World.Related

/-! ### Levels of worlds -/

theorem foldl_max_le_iff {α : Type} (f : α → Nat) (as : List α) (n m : Nat) :
    as.foldl (fun n a => max n (f a)) n ≤ m ↔ n ≤ m ∧ ∀ a ∈ as, f a ≤ m := by
  induction as generalizing n with
  | nil => simp
  | cons a as ih =>
    rw [List.foldl_cons, ih, List.forall_mem_cons, Nat.max_le, and_assoc]

theorem World.levels_le_iff {w : World σ} {env : Environment} {m : Nat} :
    w.levels env ≤ m ↔ env.options.maxDepth ≤ m ∧
      ∀ c ∈ w.closures.toList, c.environment.options.maxDepth ≤ m := by
  rw [World.levels, ← Array.foldl_toList]
  exact foldl_max_le_iff (fun c : Closure => c.environment.options.maxDepth) _ _ _

/-- Where everything may go deeper, there are more levels. -/
theorem World.levels_le_of_related {R : Closure → Closure → Prop} {w w' : World σ}
    (h : w.Related R w') {env env' : Environment}
    (henv : env.options.maxDepth ≤ env'.options.maxDepth)
    (hR : ∀ c c', R c c' →
      c.environment.options.maxDepth ≤ c'.environment.options.maxDepth) :
    w.levels env ≤ w'.levels env' := by
  obtain ⟨hown, hclosures⟩ := World.levels_le_iff.1 (Nat.le_refl (w'.levels env'))
  refine World.levels_le_iff.2 ⟨Nat.le_trans henv hown, fun c hc => ?_⟩
  obtain ⟨i, hi⟩ := List.mem_iff_getElem?.1 hc
  rw [Array.getElem?_toList] at hi
  obtain ⟨c', hc', hrel⟩ := h.exists_related hi
  refine Nat.le_trans (hR c c' hrel) (hclosures c' ?_)
  exact List.mem_of_getElem? (by rw [Array.getElem?_toList]; exact hc')

/-! ### Errors that are passed on -/

/-- An error of a closure that satisfies `p` ends the course of the request that called it. -/
def HostRun.PassesOn (p : EvalError → Prop) : HostRun σ → Prop
  | .done _ _ => True
  | .invoke _ _ _ resume =>
    (∀ e s, p e → ∃ s', resume (.error e) s = .done (.error e) s') ∧
      ∀ answer s, (resume answer s).PassesOn p

/-- All requests to a host pass on errors that satisfy `p`. -/
structure Host.PassesOn (p : EvalError → Prop) (host : Host σ) : Prop where
  call : ∀ function args s, (host.call function args s).PassesOn p
  force : ∀ lazy s, (host.force lazy s).PassesOn p
  intercept : ∀ interceptor v s, (host.intercept interceptor v s).PassesOn p
  callMethod : ∀ object name args s, (host.callMethod object name args s).PassesOn p

section

variable {p : EvalError → Prop}

theorem HostRun.passesOn_of_forall_not (hp : ∀ e, ¬ p e) (run : HostRun σ) : run.PassesOn p := by
  induction run with
  | done answer state => trivial
  | invoke closure args state resume ih => exact ⟨fun e s he => absurd he (hp e), ih⟩

/-- There is nothing to pass on. -/
theorem Host.passesOn_of_forall_not (hp : ∀ e, ¬ p e) (host : Host σ) : host.PassesOn p where
  call _ _ _ := HostRun.passesOn_of_forall_not hp _
  force _ _ := HostRun.passesOn_of_forall_not hp _
  intercept _ _ _ := HostRun.passesOn_of_forall_not hp _
  callMethod _ _ _ _ := HostRun.passesOn_of_forall_not hp _

theorem HostRun.PassesOn.logged {run : HostRun σ} (h : run.PassesOn p) (log : List HostCall) :
    (run.logged log).PassesOn p := by
  induction run generalizing log with
  | done answer state => trivial
  | invoke closure args state resume ih =>
    refine ⟨fun e s he => ?_, fun answer s => ih answer s.1 (h.2 answer s.1) s.2⟩
    obtain ⟨state', hdone⟩ := h.1 e s.1 he
    exact ⟨(state', s.2), by simp only [hdone, HostRun.logged]⟩

/-- With a log, a host passes on the same. -/
theorem Host.PassesOn.logged {host : Host σ} (h : host.PassesOn p) : host.logged.PassesOn p where
  call _ _ _ := (h.call _ _ _).logged _
  force _ _ := (h.force _ _).logged _
  intercept _ _ _ := (h.intercept _ _ _).logged _
  callMethod _ _ _ _ := (h.callMethod _ _ _ _).logged _

end

/-- A host whose functions call their first argument with the others, and that has no objects. -/
def applyingHost : Host Unit where
  call _ args _ :=
    match args with
    | .function (.closure index) :: rest => .invoke index rest () fun answer _ => .done answer ()
    | _ => .done (.ok .null) ()
  force _ _ := .done (.ok .null) ()
  intercept _ v _ := .done (.ok v) ()
  hasMethod _ _ _ := (false, ())
  callMethod _ _ _ _ := .done (.ok .null) ()
  property _ _ _ := (none, ())

theorem passesOn_applyingHost (p : EvalError → Prop) : applyingHost.PassesOn p where
  call function args s := by
    simp only [applyingHost]
    split
    · exact ⟨fun e s _ => ⟨(), rfl⟩, fun answer s => trivial⟩
    · trivial
  force _ _ := trivial
  intercept _ _ _ := trivial
  callMethod _ _ _ _ := trivial

/-! ### A host follows itself -/

section

variable {S : Simulation σ σ} {R : Closure → Closure → Prop}

theorem HostRun.follows_self (hS : S.worlds = World.Related R) {run : HostRun σ}
    (hpass : run.PassesOn S.cutOff) :
    ∀ {w w' : World σ}, S.worlds w w' → HostRun.Follows S w w' run run := by
  induction run with
  | done answer state =>
    intro w w' hw
    rw [hS] at hw
    exact .done answer (hS ▸ hw.withState state)
  | invoke closure args state resume ih =>
    intro w w' hw
    rw [hS] at hw
    refine .invoke closure args (hS ▸ hw.withState state) (fun e s he => ?_)
      fun answer v v' hv _ => ?_
    · obtain ⟨s', hdone⟩ := hpass.1 e s he
      rw [hdone]
      exact he
    · have hstate : v.state = v'.state := (hS ▸ hv : World.Related R v v').state
      rw [← hstate]
      exact ih answer v.state (hpass.2 answer v.state) hv

theorem request_self (hS : S.worlds = World.Related R) {run : σ → HostRun σ}
    (hpass : ∀ s, (run s).PassesOn S.cutOff) : S.Requests run run := by
  intro w w' hw
  have hstate : w.state = w'.state := (hS ▸ hw : World.Related R w w').state
  rw [← hstate]
  exact HostRun.follows_self hS (hpass w.state) hw

theorem onState_self (hS : S.worlds = World.Related R) {α : Type} (f : σ → α × σ) :
    S.Follows (Eval.onState f) (Eval.onState f) := by
  intro w w' hw
  rw [hS] at hw
  change S.Ends (.ok (f w.state).1, { w with state := (f w.state).2 })
    (.ok (f w'.state).1, { w' with state := (f w'.state).2 })
  rw [← hw.state]
  exact .alike _ (hS ▸ hw.withState _)

/-- A host follows itself if it passes on what cuts off. -/
theorem Host.follows_self (hS : S.worlds = World.Related R) {host : Host σ}
    (hpass : host.PassesOn S.cutOff) : Host.Follows S host host where
  call _ _ := request_self hS (hpass.call _ _)
  force _ := request_self hS (hpass.force _)
  intercept _ _ := request_self hS (hpass.intercept _ _)
  hasMethod _ _ := onState_self hS _
  callMethod _ _ _ := request_self hS (hpass.callMethod _ _ _)
  property _ _ := onState_self hS _

end

end PathQuery
