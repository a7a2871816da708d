/-
Journals of member accesses.

A journal is a log of what the host is asked, with notes in between: where a member access is
reached, and what the interceptor has answered for it.

* **`Event`** — an entry of a journal;
* **`Host.journaled`** — a host that keeps a journal beside its state;
* **`Host.MayPass`** — what an interceptor may answer to a value;
* **`Guarded`** — the journals in which objects are asked for members only where the interceptor has
  just let them through;
* **`Guarded.exists_mayPass`** — in such a journal only those objects are asked that interceptors
  may let through.

Design notes: an interceptor may call closures, so there may be other accesses between the question
to it and its answer.  This is why guarded journals are a grammar and not a condition on neighbours.
-/
import PathQuery.Proofs.Host.Log

namespace PathQuery

variable {σ γ : Type}

/-- An entry of a journal: a member access has its object and its arguments, the host is asked, or
the interceptor has answered. -/
inductive Event where
  | reached (target : Value) (member : String)
  | asked (call : HostCall)
  | passed (answer : Except EvalError Value)

namespace Event

/-- What the host is asked. -/
def call? : Event → Option HostCall
  | .asked call => some call
  | _ => none

/-- Whether a member access is reached. -/
def isReached : Event → Bool
  | .reached _ _ => true
  | _ => false

/-- Whether an interceptor is asked. -/
def isIntercept : Event → Bool
  | .asked (.intercept _ _) => true
  | _ => false

end Event

/-- The object that is asked for a member. -/
def HostCall.object? : HostCall → Option HostObject
  | .hasMethod object _ => some object
  | .callMethod object _ _ => some object
  | .property object _ => some object
  | _ => none

/-! ### Hosts with a journal -/

/-- A world with something beside the state of the host. -/
def World.beside (w : World σ) (x : γ) : World (σ × γ) := ⟨(w.state, x), w.closures⟩

/-- The course of a request with something beside the state that stays as it is meanwhile, save for
what closures do to it. -/
def HostRun.beside : HostRun σ → γ → HostRun (σ × γ)
  | .done answer state, x => .done answer (state, x)
  | .invoke closure args state resume, x =>
    .invoke closure args (state, x) fun answer s => (resume answer s.1).beside s.2

/-- A host that writes into a journal what it is asked before it answers. -/
def Host.journaled (host : Host σ) : Host (σ × List Event) where
  call function args s :=
    (host.call function args s.1).beside (s.2 ++ [.asked (.call function args)])
  force lazy s := (host.force lazy s.1).beside (s.2 ++ [.asked (.force lazy)])
  intercept interceptor v s :=
    (host.intercept interceptor v s.1).beside (s.2 ++ [.asked (.intercept interceptor v)])
  hasMethod object name s :=
    let (answer, state) := host.hasMethod object name s.1
    (answer, state, s.2 ++ [.asked (.hasMethod object name)])
  callMethod object name args s :=
    (host.callMethod object name args s.1).beside (s.2 ++ [.asked (.callMethod object name args)])
  property object name s :=
    let (answer, state) := host.property object name s.1
    (answer, state, s.2 ++ [.asked (.property object name)])

/-- The journal of a world. -/
def World.journal (w : World (σ × List Event)) : List Event := w.state.2

/-- Writes a note into the journal. -/
def World.noted (w : World (σ × List Event)) (event : Event) : World (σ × List Event) :=
  { w with state := (w.state.1, w.journal ++ [event]) }

/-- What the host is asked goes to the end of the log. -/
theorem filterMap_call?_append_asked (journal : List Event) (call : HostCall) :
    (journal ++ [Event.asked call]).filterMap Event.call? =
      journal.filterMap Event.call? ++ [call] := List.filterMap_append

/-- Notes are not in the log. -/
theorem filterMap_call?_append_note (journal : List Event) {event : Event}
    (h : event.call? = none) :
    (journal ++ [event]).filterMap Event.call? = journal.filterMap Event.call? := by
  rw [List.filterMap_append, List.filterMap_cons_none h, List.filterMap_nil, List.append_nil]

theorem mem_filterMap_call?_iff {journal : List Event} {call : HostCall} :
    call ∈ journal.filterMap Event.call? ↔ .asked call ∈ journal := by
  rw [List.mem_filterMap]
  constructor
  · rintro ⟨event, hevent, heq⟩
    cases event with
    | asked other => exact Option.some.inj heq ▸ hevent
    | reached target member => exact nomatch heq
    | passed answer => exact nomatch heq
  · exact fun h => ⟨_, h, rfl⟩

/-! ### Answers of interceptors -/

/-- An answer that the course of a request may end with, given the right answers of closures. -/
def HostRun.MayAnswer (a : Except EvalError Value) : HostRun σ → Prop
  | .done answer _ => answer = a
  | .invoke _ _ _ resume => ∃ answer s, (resume answer s).MayAnswer a

/-- An answer that an interceptor may give to a value. -/
def Host.MayPass (host : Host σ) (interceptor : Nat) (v : Value)
    (answer : Except EvalError Value) : Prop :=
  ∃ s, (host.intercept interceptor v s).MayAnswer answer

/-- The interceptor fails for all values of a kind. -/
def Host.Denies (host : Host σ) (interceptor : Nat) (kind : String) : Prop :=
  ∀ v, v.kind = kind → ∀ answer, host.MayPass interceptor v answer → ∃ e, answer = .error e

/-- The interceptor puts no value of a kind in the place of one of another kind. -/
def Host.NeverYields (host : Host σ) (interceptor : Nat) (kind : String) : Prop :=
  ∀ v, v.kind ≠ kind → ∀ v', host.MayPass interceptor v (.ok v') → v'.kind ≠ kind

theorem HostRun.MayAnswer.of_beside {a : Except EvalError Value} {run : HostRun σ} :
    ∀ {x : γ}, (run.beside x).MayAnswer a → run.MayAnswer a := by
  induction run with
  | done answer state => exact id
  | invoke closure args state resume ih =>
    rintro x ⟨answer, s, h⟩
    exact ⟨answer, s.1, ih answer s.1 h⟩

theorem HostRun.mayAnswer_runIn {invoke : Nat → List Value → Eval σ Value} (run : HostRun σ)
    (w : World σ) : run.MayAnswer ((Eval.ofRun invoke run).runIn w).1 := by
  induction run generalizing w with
  | done answer state =>
    rw [Eval.runIn_ofRun_done]
    exact rfl
  | invoke closure args state resume ih =>
    rw [Eval.runIn_ofRun_invoke]
    exact ⟨_, _, ih _ _ _⟩

/-! ### Guarded journals -/

/-- What is written for a member access behind the answer of the interceptor.  Only an object that
the interceptor answered is asked, and for the member of the access. -/
inductive Resolves (member : String) : Except EvalError Value → List Event → Prop where
  | refused (e : EvalError) : Resolves member (.error e) []
  | method (object : HostObject) (args : List Value) : Resolves member (.ok (.host object))
      [.asked (.hasMethod object member), .asked (.callMethod object member args)]
  | property (object : HostObject) : Resolves member (.ok (.host object))
      [.asked (.hasMethod object member), .asked (.property object member)]
  | other {v : Value} (h : ∀ object, v ≠ .host object) : Resolves member (.ok v) []

/-- What is written behind the answer starts no access and asks no interceptor. -/
theorem Resolves.countP_eq_zero {member : String} {answer : Except EvalError Value}
    {rest : List Event} (h : Resolves member answer rest) :
    rest.countP Event.isReached = 0 ∧ rest.countP Event.isIntercept = 0 := by
  cases h <;> exact ⟨rfl, rfl⟩

/-- The object that is asked behind the answer is the one in the answer. -/
theorem Resolves.answer_eq {member : String} {answer : Except EvalError Value} {rest : List Event}
    (h : Resolves member answer rest) {call : HostCall} {object : HostObject}
    (hcall : .asked call ∈ rest) (hobject : call.object? = some object) :
    answer = .ok (.host object) := by
  cases h with
  | refused e => exact absurd hcall List.not_mem_nil
  | other h => exact absurd hcall List.not_mem_nil
  | method o args =>
    simp only [List.mem_cons, Event.asked.injEq, List.not_mem_nil, or_false] at hcall
    rcases hcall with rfl | rfl <;> rw [Option.some.inj hobject]
  | property o =>
    simp only [List.mem_cons, Event.asked.injEq, List.not_mem_nil, or_false] at hcall
    rcases hcall with rfl | rfl <;> rw [Option.some.inj hobject]

/-- Journals in which each member access asks one interceptor out of `I`, and asks the object that
this one answered, if it is an object.  Interceptors are asked nowhere else. -/
inductive Guarded (host : Host σ) (I : Nat → Prop) : List Event → Prop where
  | nil : Guarded host I []
  | append {j k : List Event} (hj : Guarded host I j) (hk : Guarded host I k) :
      Guarded host I (j ++ k)
  | call (function : Nat) (args : List Value) : Guarded host I [.asked (.call function args)]
  | force (lazy : LazyRef) : Guarded host I [.asked (.force lazy)]
  | access {interceptor : Nat} (hI : I interceptor) (target : Value) (member : String)
      {inner : List Event} (hinner : Guarded host I inner) {answer : Except EvalError Value}
      (hanswer : host.MayPass interceptor target answer) {rest : List Event}
      (hrest : Resolves member answer rest) :
      Guarded host I (.reached target member :: .asked (.intercept interceptor target) ::
        (inner ++ .passed answer :: rest))

namespace Guarded

variable {host : Host σ} {I : Nat → Prop} {journal : List Event}

/-- There are as many questions to interceptors as there are member accesses. -/
theorem countP_isReached (h : Guarded host I journal) :
    journal.countP Event.isReached = journal.countP Event.isIntercept := by
  induction h with
  | nil => rfl
  | append hj hk ihj ihk => rw [List.countP_append, List.countP_append, ihj, ihk]
  | call function args => rfl
  | force lazy => rfl
  | access hI target member hinner hanswer hrest ih =>
    obtain ⟨hreached, hintercept⟩ := hrest.countP_eq_zero
    have hno := Bool.false_ne_true
    rw [List.countP_cons_of_pos rfl, List.countP_cons_of_neg hno, List.countP_cons_of_neg hno,
      List.countP_cons_of_pos rfl, List.countP_append, List.countP_append, ih,
      List.countP_cons_of_neg hno, List.countP_cons_of_neg hno, hreached, hintercept]

/-- An object that is asked was answered by an interceptor. -/
theorem exists_mayPass (h : Guarded host I journal) {call : HostCall} {object : HostObject}
    (hcall : .asked call ∈ journal) (hobject : call.object? = some object) :
    ∃ interceptor v, I interceptor ∧ host.MayPass interceptor v (.ok (.host object)) := by
  induction h with
  | nil => exact absurd hcall List.not_mem_nil
  | append hj hk ihj ihk => exact (List.mem_append.1 hcall).elim ihj ihk
  | call function args =>
    obtain rfl := Event.asked.inj (List.mem_singleton.1 hcall)
    exact absurd hobject (by simp [HostCall.object?])
  | force lazy =>
    obtain rfl := Event.asked.inj (List.mem_singleton.1 hcall)
    exact absurd hobject (by simp [HostCall.object?])
  | @access interceptor hI target member inner hinner answer hanswer rest hrest ih =>
    simp only [List.mem_cons, List.mem_append, reduceCtorEq, false_or] at hcall
    obtain hcall | hcall | hcall := hcall
    · obtain rfl := Event.asked.inj hcall
      exact absurd hobject (by simp [HostCall.object?])
    · exact ih hcall
    · exact ⟨interceptor, target, hI, hrest.answer_eq hcall hobject ▸ hanswer⟩

/-- Where interceptors fail for all values of a kind, an object of that kind is asked only if one
was put in the place of another value. -/
theorem exists_mayPass_of_denies (h : Guarded host I journal) {kind : String}
    (hdenies : ∀ i, I i → host.Denies i kind) {call : HostCall} {object : HostObject}
    (hcall : .asked call ∈ journal) (hobject : call.object? = some object) :
    ∃ i v, I i ∧ v.kind ≠ kind ∧ host.MayPass i v (.ok (.host object)) := by
  obtain ⟨i, v, hI, hpass⟩ := h.exists_mayPass hcall hobject
  refine ⟨i, v, hI, fun hkind => ?_, hpass⟩
  obtain ⟨e, he⟩ := hdenies i hI v hkind _ hpass
  exact nomatch he

end Guarded

end PathQuery
