/-
The interceptor guards all member accesses.

* **`evaluateNoted`** — evaluation with a journal, in which each member access leaves a note when it
  has its object and its arguments, and another one with the answer of the interceptor;
* **`Mediated`** — a run in which the host is asked for members only of what an interceptor has just
  let through, and each interceptor is asked for one access;
* **`mediated_of_guardedBy`** — all evaluations are mediated where all engines have interceptors;
  so are functions that are called later on;
* **`exists_denied_object_asked`** — an interceptor may put an object of a kind that it fails for in
  the place of another value, and an engine without one asks what it likes.

Design notes: notes change nothing else.  So evaluation with a journal is compared with the plain
one, and the invariant of the comparison is that a guarded journal has been written since some
earlier point; the point is a parameter, since an interceptor may call closures in the middle of an
access.
-/
import PathQuery.Proofs.Evaluation.Simulation.SameHost
import PathQuery.Proofs.Host.Journal

namespace PathQuery

variable {σ : Type}

/-! ### Evaluation with a journal -/

/-- Writes a note into the journal. -/
def note (event : Event) : Eval (σ × List Event) Unit := modify (·.noted event)

section Noted

variable (host : Host σ) (below : Evaluator (σ × List Event))

/-- A member access behind its object and its arguments. -/
def accessNoted (env : Environment) (select : Collection.Select (σ × List Event)) (target : Value)
    (member : String) (args : Option (List Value)) : Eval (σ × List Event) Value := do
  note (.reached target member)
  let answer ← Eval.ofRun.observing (intercept host.journaled below env target)
  note (.passed answer)
  access host.journaled below select (← Eval.ofExcept answer) member args

/-- Reads a member of an element. -/
def readMemberNoted (env : Environment) (item : Value) (member : String) :
    Eval (σ × List Event) Value := do
  accessNoted host below env noSelection (← force host.journaled below item) member none

/-- Applies a selector to an element. -/
def selectNoted (env : Environment) : Collection.Select (σ × List Event) :=
  fun method selector item =>
    match selector with
    | .string member => readMemberNoted host below env item member
    | other => select host.journaled below env method other item

/-- Evaluates the node at the top of an expression. -/
def stepNoted : Evaluator (σ × List Event) := fun env context expr =>
  match expr with
  | .member object name nullSafe => do
    let target ← memberObject host.journaled below env context object
    if nullSafe && target.isNull then return .null
    accessNoted host below env (selectNoted host below env) target name none
  | .memberCall object name arguments nullSafe => do
    let target ← memberObject host.journaled below env context object
    if nullSafe && target.isNull then return .null
    let args ← arguments.mapM (below env context)
    accessNoted host below env (selectNoted host below env) target name (some args)
  | other => step host.journaled below env context other

end Noted

/-- The evaluator at a level. -/
def evalNotedAt (host : Host σ) : (levels depth : Nat) → Evaluator (σ × List Event)
  | 0, _ => fun env _ _ => throw (.depthExceeded env.options.maxDepth)
  | levels + 1, depth => fun env context expr =>
    if env.options.maxDepth ≤ depth then throw (.depthExceeded env.options.maxDepth)
    else stepNoted host (evalNotedAt host levels (depth + 1)) env context expr

/-- The value of an expression. -/
def evaluateNoted (host : Host σ) (env : Environment) (context : Context) (e : Expr) :
    Eval (σ × List Event) Value := do
  evalNotedAt host ((← get).levels env) 0 env context e

/-- Calls a function from outside of any evaluation. -/
def callValueNoted (host : Host σ) (f : FunctionRef) (args : List Value) :
    Eval (σ × List Event) Value := do
  callFunction host.journaled (evalNotedAt host ((← get).levels default) 0) f args

/-! ### Journals and logs -/

/-- An engine with one of the interceptors `I`. -/
def Environment.GuardedBy (I : Nat → Prop) (env : Environment) : Prop :=
  ∃ interceptor, env.interceptor = some interceptor ∧ I interceptor

/-- Where only engines with one of the interceptors `I` made closures, those of a world. -/
def World.GuardedBy (I : Nat → Prop) (w : World σ) : Prop :=
  ∀ c ∈ w.closures, c.environment.GuardedBy I

/-- A journal is guarded from an earlier point on. -/
def GuardedSince (host : Host σ) (I : Nat → Prop) (start journal : List Event) : Prop :=
  ∃ events, journal = start ++ events ∧ Guarded host I events

theorem GuardedSince.append {host : Host σ} {I : Nat → Prop} {start journal events : List Event}
    (h : GuardedSince host I start journal) (hevents : Guarded host I events) :
    GuardedSince host I start (journal ++ events) := by
  obtain ⟨earlier, rfl, hearlier⟩ := h
  exact ⟨earlier ++ events, List.append_assoc _ _ _, hearlier.append hevents⟩

/-- A world with a log and one with a journal that says the same. -/
structure World.Mirrors (I : Nat → Prop) (w : World (σ × List Event))
    (w' : World (σ × List HostCall)) : Prop where
  state : w'.state = (w.state.1, w.journal.filterMap Event.call?)
  closures : w.closures = w'.closures
  guarded : w.GuardedBy I

theorem World.Mirrors.withState {I : Nat → Prop} {w : World (σ × List Event)}
    {w' : World (σ × List HostCall)} (h : w.Mirrors I w') (state : σ) (journal : List Event) :
    World.Mirrors I { w with state := (state, journal) }
      { w' with state := (state, journal.filterMap Event.call?) } :=
  ⟨rfl, h.closures, h.guarded⟩

/-- The log is what the journal has besides notes. -/
theorem World.Mirrors.eq {I : Nat → Prop} {w : World (σ × List Event)}
    {w' : World (σ × List HostCall)} (h : w.Mirrors I w') :
    w' = ⟨(w.state.1, w.journal.filterMap Event.call?), w.closures⟩ := by
  rw [h.closures, ← h.state]

/-- Notes are not in the log. -/
theorem World.Mirrors.noted {I : Nat → Prop} {w : World (σ × List Event)}
    {w' : World (σ × List HostCall)} (h : w.Mirrors I w') {event : Event}
    (hevent : event.call? = none) : (w.noted event).Mirrors I w' where
  state := by
    rw [h.state]
    exact congrArg (Prod.mk _) (filterMap_call?_append_note _ hevent).symm
  closures := h.closures
  guarded := h.guarded

/-- Evaluation with a journal beside evaluation with a log.  The journal is guarded from some
point on. -/
def journaling (host : Host σ) (I : Nat → Prop) (start : List Event) :
    Simulation (σ × List Event) (σ × List HostCall) where
  worlds w w' := w.Mirrors I w' ∧ GuardedSince host I start w.journal
  scenes s s' _ := s = s' ∧ s.environment.GuardedBy I
  cutOff _ := False
  size_closures h := congrArg Array.size h.1.closures
  called {w w' i c c'} h hc hc' := by
    rw [← h.1.closures, hc] at hc'
    obtain rfl := Option.some.inj hc'
    exact ⟨rfl, fun args => ⟨rfl, h.1.guarded c (Array.mem_of_getElem? hc)⟩⟩
  made {w w' s s' params body} h hs := by
    obtain ⟨rfl, hguarded⟩ := hs
    refine ⟨⟨h.1.state, by rw [h.1.closures], fun c hc => ?_⟩, h.2⟩
    obtain hc | rfl := Array.mem_push.1 hc
    · exact h.1.guarded c hc
    · exact hguarded
  part hs _ _ := hs
  interceptor hs := by rw [hs.1]
  variable_get hs := by
    rw [hs.1]
    exact ⟨rfl, rfl, fun _ => rfl⟩
  variable_strict hs := .inl (by rw [hs.1])
  call_get hs := by rw [hs.1]
  maxDepth hs := .inl (by rw [hs.1])

section

variable {host : Host σ} {I : Nat → Prop} {start : List Event}
  {below : Evaluator (σ × List Event)} {below' : Evaluator (σ × List HostCall)}

/-! ### What the host is asked -/

/-- What closures do in the middle of a request is in the journal and in the log. -/
theorem HostRun.beside_follows (run : HostRun σ) :
    ∀ {journal : List Event} {w : World (σ × List Event)} {w' : World (σ × List HostCall)},
      w.Mirrors I w' → GuardedSince host I start journal →
        HostRun.Follows (journaling host I start) w w' (run.beside journal)
          (run.logged (journal.filterMap Event.call?)) := by
  induction run with
  | done answer state =>
    intro journal w w' hw hjournal
    exact .done answer ⟨hw.withState state journal, hjournal⟩
  | invoke closure args state resume ih =>
    intro journal w w' hw hjournal
    refine .invoke closure args ⟨hw.withState state journal, hjournal⟩ (fun _ _ => False.elim)
      fun answer v v' hv _ => ?_
    rw [hv.1.state]
    exact ih answer v.state.1 hv.1 hv.2

/-- A request is written down in both, and guards the journal if nothing else has to be there. -/
theorem request_beside {run : σ → HostRun σ} {call : HostCall}
    (hcall : Guarded host I [.asked call]) :
    (journaling host I start).Requests
      (fun s => (run s.1).beside (s.2 ++ [Event.asked call]))
      (fun s => (run s.1).logged (s.2 ++ [call])) := by
  intro w w' hw
  have hfollows := HostRun.beside_follows (run w.state.1) hw.1 (hw.2.append hcall)
  rw [filterMap_call?_append_asked] at hfollows
  rw [hw.1.state]
  exact hfollows

theorem computes_journaled :
    Host.Computes (journaling host I start) host.journaled host.logged where
  call function args := request_beside (.call function args)
  force lazy := request_beside (.force lazy)

/-! ### Member accesses -/

/-- A member access in two parts: what the interceptor does, and the rest with its answer. -/
theorem runIn_accessNoted (env : Environment) (select : Collection.Select (σ × List Event))
    (target : Value) (member : String) (args : Option (List Value)) (w : World (σ × List Event)) :
    (accessNoted host below env select target member args).runIn w =
      let r := (intercept host.journaled below env target).runIn (w.noted (.reached target member))
      (Eval.ofExcept r.1 >>= fun target =>
        access host.journaled below select target member args).runIn (r.2.noted (.passed r.1)) :=
  rfl

/-- An object that is asked right behind the answer of the interceptor. -/
theorem accessObject_follows_of_passed
    (hbelow : (journaling host I start).Evaluators below below')
    (select : Collection.Select (σ × List Event)) (select' : Collection.Select (σ × List HostCall))
    {object : HostObject} {member : String} (args : Option (List Value))
    {w : World (σ × List Event)} {w' : World (σ × List HostCall)} (hw : w.Mirrors I w')
    (hrest : ∀ rest, Resolves member (.ok (.host object)) rest →
      GuardedSince host I start (w.journal ++ rest)) :
    (journaling host I start).Ends
      ((access host.journaled below select (.host object) member args).runIn w)
      ((access host.logged below' select' (.host object) member args).runIn w') := by
  obtain rfl := hw.eq
  rw [access, access, Eval.runIn_bind_of_ok (Eval.runIn_onState _ _),
    Eval.runIn_bind_of_ok (Eval.runIn_onState _ _)]
  -- Whether there is a method is asked on both sides, and the answer is the same.
  generalize hasked : host.hasMethod object member w.state.1 = asked
  simp only [Host.journaled, Host.logged, hasked]
  obtain ⟨b, s⟩ := asked
  cases b with
  | true =>
    have hguarded := hrest _ (.method object (args.getD []))
    rw [List.append_cons] at hguarded
    have hfollows := HostRun.beside_follows (host.callMethod object member (args.getD []) s)
      (hw.withState s (w.journal ++ [.asked (.hasMethod object member)])) hguarded
    simp only [filterMap_call?_append_asked] at hfollows
    exact ofRun_follows (callClosure_follows hbelow) hfollows
  | false =>
    have hguarded := hrest _ (.property object)
    generalize hfound : host.property object member s = found
    obtain ⟨entry, s'⟩ := found
    have hworlds : (journaling host I start).worlds
        ⟨(s', w.journal ++ [.asked (.hasMethod object member)] ++
          [.asked (.property object member)]), w.closures⟩
        ⟨(s', w.journal.filterMap Event.call? ++ [.hasMethod object member] ++
          [.property object member]), w.closures⟩ := by
      rw [List.append_cons] at hguarded
      have hmirrors := hw.withState s' (w.journal ++ [.asked (.hasMethod object member)] ++
        [.asked (.property object member)])
      simp only [filterMap_call?_append_asked] at hmirrors
      exact ⟨hmirrors, hguarded⟩
    rw [if_neg Bool.false_ne_true, if_neg Bool.false_ne_true]
    rw [Eval.runIn_bind_of_ok (Eval.runIn_onState _ _),
      Eval.runIn_bind_of_ok (Eval.runIn_onState _ _)]
    simp only [hfound]
    cases entry with
    | some entry =>
      exact useEntry_follows computes_journaled hbelow member args entry _ _ hworlds
    | none => exact .alike _ hworlds

/-- The interceptor guards what is asked behind its answer. -/
theorem access_follows_of_passed
    (hbelow : (journaling host I start).Evaluators below below')
    {select : Collection.Select (σ × List Event)} {select' : Collection.Select (σ × List HostCall)}
    (hselect : (journaling host I start).Selects select select') {answer : Except EvalError Value}
    {member : String} (args : Option (List Value)) {w : World (σ × List Event)}
    {w' : World (σ × List HostCall)} (hw : w.Mirrors I w')
    (hrest : ∀ rest, Resolves member answer rest → GuardedSince host I start (w.journal ++ rest)) :
    (journaling host I start).Ends
      ((Eval.ofExcept answer >>= fun target =>
        access host.journaled below select target member args).runIn w)
      ((Eval.ofExcept answer >>= fun target =>
        access host.logged below' select' target member args).runIn w') := by
  -- What asks nothing more leaves the journal guarded as it is.
  have hworlds (h : Resolves member answer []) : (journaling host I start).worlds w w' := by
    have hguarded := hrest [] h
    rw [List.append_nil] at hguarded
    exact ⟨hw, hguarded⟩
  cases answer with
  | error e => exact .alike _ (hworlds (.refused e))
  | ok target =>
    by_cases hobject : ∃ object, target = .host object
    · obtain ⟨object, rfl⟩ := hobject
      exact accessObject_follows_of_passed hbelow select select' args hw hrest
    · have hother : ∀ object, target ≠ .host object := fun object h => hobject ⟨object, h⟩
      exact access_follows computes_journaled hbelow hselect
        (fun object h => absurd h (hother object)) w w' (hworlds (.other hother))

/-- A member access with notes, and one without. -/
theorem accessNoted_follows
    (hbelow : ∀ start, (journaling host I start).Evaluators below below')
    {select : Collection.Select (σ × List Event)} {select' : Collection.Select (σ × List HostCall)}
    (hselect : (journaling host I start).Selects select select') {env : Environment}
    (henv : env.GuardedBy I) (target : Value) (member : String) (args : Option (List Value)) :
    (journaling host I start).Follows (accessNoted host below env select target member args)
      (do
        let target ← intercept host.logged below' env target
        access host.logged below' select' target member args) := by
  rintro w w' ⟨hw, earlier, hearlier, hguarded⟩
  obtain ⟨i, hi, hI⟩ := henv
  have hrequest : intercept host.journaled below env target =
      request below (host.journaled.intercept i target) := by rw [intercept, hi]
  have hrequest' : intercept host.logged below' env target =
      request below' (host.logged.intercept i target) := by rw [intercept, hi]
  -- The interceptor starts in the middle of the access, so what it does is looked at on its own.
  let noted := w.noted (.reached target member)
  have hnoted : noted.Mirrors I w' := hw.noted rfl
  let begun := noted.journal ++ [.asked (.intercept i target)]
  have hbegun : GuardedSince host I begun begun := ⟨[], (List.append_nil _).symm, .nil⟩
  have hinner : (journaling host I begun).Ends
      ((request below (host.journaled.intercept i target)).runIn noted)
      ((request below' (host.logged.intercept i target)).runIn w') := by
    have hfollows := HostRun.beside_follows (host.intercept i target w.state.1) hnoted hbegun
    rw [filterMap_call?_append_asked] at hfollows
    obtain rfl := hnoted.eq
    exact ofRun_follows (callClosure_follows (hbelow begun)) hfollows
  have hpass : host.MayPass i target
      ((request below (host.journaled.intercept i target)).runIn noted).1 :=
    ⟨w.state.1, (HostRun.mayAnswer_runIn _ noted).of_beside⟩
  rw [runIn_accessNoted, hrequest, hrequest',
    Eval.runIn_bind_eq_ofExcept (request below' (host.logged.intercept i target))]
  obtain ⟨heq, hw₁, inner, hinner, hguarded'⟩ := hinner.eq_of_forall_not fun _ => id
  rw [← heq]
  refine access_follows_of_passed (hbelow start) hselect args (hw₁.noted rfl) fun rest hrest => ?_
  refine ⟨earlier ++ _, ?_, hguarded.append (.access hI target member hguarded' hpass hrest)⟩
  change _ ++ [Event.passed _] ++ rest = _
  rw [hinner]
  change w.journal ++ [.reached target member] ++ [.asked (.intercept i target)] ++ inner ++
    [.passed _] ++ rest = _
  rw [hearlier]
  simp only [List.append_assoc, List.cons_append, List.nil_append]
  rfl

/-! ### Levels -/

theorem readMemberNoted_follows
    (hbelow : ∀ start, (journaling host I start).Evaluators below below') {env : Environment}
    (henv : env.GuardedBy I) (item : Value) (member : String) :
    (journaling host I start).Follows (readMemberNoted host below env item member)
      (readMember host.logged below' env item member) :=
  (force_follows computes_journaled (hbelow start) item).bind fun v =>
    accessNoted_follows hbelow (fun _ _ _ => .pure _) henv v member none

theorem selectNoted_follows
    (hbelow : ∀ start, (journaling host I start).Evaluators below below') {env : Environment}
    (henv : env.GuardedBy I) :
    (journaling host I start).Selects (selectNoted host below env)
      (select host.logged below' env) := by
  intro method selector item
  cases selector with
  | function f => exact callFunction_follows computes_journaled (hbelow start) f [item]
  | string member => exact readMemberNoted_follows hbelow henv item member
  | _ => exact .throw _

theorem stepNoted_follows
    (hbelow : ∀ start, (journaling host I start).Evaluators below below') :
    (journaling host I start).Evaluators (stepNoted host below) (step host.logged below') := by
  rintro s s' e ⟨rfl, henv⟩
  have hscene : (journaling host I start).scenes s s e := ⟨rfl, henv⟩
  have hselect : (journaling host I start).Selects (selectNoted host below s.environment)
      (select host.logged below' s.environment) := selectNoted_follows hbelow henv
  have hobject (object : Expr) : (journaling host I start).Follows
      (memberObject host.journaled below s.environment s.context object)
      (memberObject host.logged below' s.environment s.context object) :=
    memberObject_follows computes_journaled (hbelow start) ⟨rfl, henv⟩
  cases e with
  | member object name nullSafe =>
    refine (hobject object).bind fun target => ?_
    split
    · exact .pure _
    · exact accessNoted_follows hbelow hselect henv target name none
  | memberCall object name args nullSafe =>
    refine (hobject object).bind fun target => ?_
    split
    · exact .pure _
    · exact (mapM_below_follows (hbelow start) fun e _ => ⟨rfl, henv⟩).bind fun args =>
        accessNoted_follows hbelow hselect henv target name (some args)
  | _ => exact step_follows_of_not_isMemberStep computes_journaled (hbelow start) hscene rfl

/-- All levels follow each other, whatever the point from which the journal is looked at. -/
theorem evalNotedAt_follows (levels depth : Nat) (start : List Event) :
    (journaling host I start).Evaluators (evalNotedAt host levels depth)
      (evalAt host.logged levels depth) := by
  induction levels generalizing depth start with
  | zero =>
    rintro s s' e ⟨rfl, henv⟩
    exact .throw _
  | succ levels ih =>
    rintro s s' e ⟨rfl, henv⟩
    rw [evalNotedAt, evalAt]
    dsimp only
    split
    · exact .throw _
    · exact stepNoted_follows (fun start => ih (depth + 1) start) ⟨rfl, henv⟩

end

/-! ### Mediation -/

/-- A run with notes, beside one with a log that has the same answer and asks the same.  The host is
asked for members only of what an interceptor has just let through for the access at hand, and there
are as many questions to interceptors as accesses.  So interceptors that fail for all values of a
kind, and put none in the place of others, keep objects of that kind from being asked. -/
def Mediated (host : Host σ) (I : Nat → Prop) (w : World σ)
    (noted : Eval (σ × List Event) Value) (plain : Eval (σ × List HostCall) Value) : Prop :=
  ∃ (answer : Except EvalError Value) (w₁ : World σ) (journal : List Event)
    (log : List HostCall),
    noted.runIn (w.beside []) = (answer, w₁.beside journal) ∧
    plain.runIn (w.beside []) = (answer, w₁.beside log) ∧ w₁.GuardedBy I ∧
    log = journal.filterMap Event.call? ∧ Guarded host I journal ∧
    journal.countP Event.isReached = journal.countP Event.isIntercept ∧
    ∀ kind, (∀ i, I i → host.Denies i kind) → ∀ call ∈ log, ∀ object ∈ call.object?,
      (∃ i v, I i ∧ v.kind ≠ kind ∧ host.MayPass i v (.ok (.host object))) ∧
      ((∀ i, I i → host.NeverYields i kind) → object.typeName ≠ kind)

section

variable {host : Host σ} {I : Nat → Prop} {w : World σ}

theorem mediated_of_follows (hw : w.GuardedBy I) {noted : Eval (σ × List Event) Value}
    {plain : Eval (σ × List HostCall) Value}
    (h : (journaling host I []).Follows noted plain) : Mediated host I w noted plain := by
  have hworlds : (journaling host I []).worlds (w.beside []) (w.beside []) :=
    ⟨⟨rfl, rfl, hw⟩, [], rfl, .nil⟩
  obtain ⟨hanswer, hmirrors, journal, hjournal, hguarded⟩ :=
    (h _ _ hworlds).eq_of_forall_not fun _ => id
  rw [List.nil_append] at hjournal
  rw [← hjournal] at hguarded
  rw [Mediated]
  generalize noted.runIn (w.beside []) = r, plain.runIn (w.beside []) = r' at *
  refine ⟨r.1, ⟨r.2.state.1, r.2.closures⟩, r.2.journal, _, rfl, Prod.ext hanswer.symm hmirrors.eq,
    hmirrors.guarded, rfl, hguarded, hguarded.countP_isReached, ?_⟩
  intro kind hdenies call hcall object hobject
  have hasked := mem_filterMap_call?_iff.1 hcall
  obtain ⟨i, v, hI, hv, hpass⟩ := hguarded.exists_mayPass_of_denies hdenies hasked hobject
  exact ⟨⟨i, v, hI, hv, hpass⟩, fun hnever => hnever i hI v hv _ hpass⟩

theorem evaluateNoted_follows {env : Environment} (henv : env.GuardedBy I) (context : Context)
    (e : Expr) (start : List Event) :
    (journaling host I start).Follows (evaluateNoted host env context e)
      (evaluate host.logged env context e) := by
  rintro w w' hw
  have hlevels : w.levels env = w'.levels env := by
    rw [World.levels, World.levels, hw.1.closures]
  rw [evaluateNoted, Eval.runIn_bind_of_ok (Eval.runIn_get w), runIn_evaluate, hlevels]
  exact evalNotedAt_follows _ 0 start (s := ⟨env, context⟩) ⟨rfl, henv⟩ w w' hw

theorem callValueNoted_follows (f : FunctionRef) (args : List Value) (start : List Event) :
    (journaling host I start).Follows (callValueNoted host f args)
      (callValue host.logged f args) := by
  rintro w w' hw
  have hlevels : w.levels default = w'.levels default := by
    rw [World.levels, World.levels, hw.1.closures]
  rw [callValueNoted, Eval.runIn_bind_of_ok (Eval.runIn_get w), callValue, runIn_atTop, hlevels]
  exact callFunction_follows computes_journaled (evalNotedAt_follows _ 0 start) f args w w' hw

/-- A null-safe step on null ends there. -/
theorem runIn_stepNoted_of_null {below : Evaluator (σ × List Event)} {env : Environment}
    {context : Context} {object : Expr} {w w' : World (σ × List Event)}
    (h : (memberObject host.journaled below env context object).runIn w = (.ok .null, w'))
    (name : String) (args : List Expr) :
    (stepNoted host below env context (.member object name true)).runIn w = (.ok .null, w') ∧
      (stepNoted host below env context (.memberCall object name args true)).runIn w =
        (.ok .null, w') :=
  ⟨Eval.runIn_bind_of_ok h, Eval.runIn_bind_of_ok h⟩

/-- The interceptor guards all member accesses: all evaluations are mediated where each engine has
an interceptor, and so are calls of functions later on.  A null-safe step on null ends before it
comes to an access. -/
theorem mediated_of_guardedBy (host : Host σ) {I : Nat → Prop} {w : World σ}
    (hw : w.GuardedBy I) :
    (∀ env, env.GuardedBy I → ∀ context e,
      Mediated host I w (evaluateNoted host env context e) (evaluate host.logged env context e)) ∧
    (∀ f args, Mediated host I w (callValueNoted host f args) (callValue host.logged f args)) ∧
    ∀ below env context object v v',
      (memberObject host.journaled below env context object).runIn v = (.ok .null, v') →
        ∀ name args,
          (stepNoted host below env context (.member object name true)).runIn v = (.ok .null, v') ∧
          (stepNoted host below env context (.memberCall object name args true)).runIn v =
            (.ok .null, v') := by
  refine ⟨?_, ?_, ?_⟩
  · intro env henv context e
    exact mediated_of_follows hw (evaluateNoted_follows henv context e [])
  · intro f args
    exact mediated_of_follows hw (callValueNoted_follows f args [])
  · intro below env context object v v' h name args
    exact runIn_stepNoted_of_null h name args

end

/-- A host whose interceptors fail for pages and answer `passed v` to every other value `v`. -/
def pageGuard (passed : Value → Value) : Host Unit :=
  { applyingHost with
    intercept := fun _ v _ =>
      .done (if v.kind = "page" then .error (.host "pages are off limits") else .ok (passed v)) () }

theorem denies_pageGuard (passed : Value → Value) : (pageGuard passed).Denies 0 "page" := by
  rintro v hv answer ⟨s, rfl⟩
  exact ⟨_, if_pos hv⟩

/-- It yields no page if it lets everything else through as it is. -/
theorem neverYields_pageGuard : (pageGuard id).NeverYields 0 "page" := by
  rintro v hv v' ⟨s, hpass⟩
  change ite (v.kind = "page") _ _ = _ at hpass
  rw [if_neg hv] at hpass
  exact Except.ok.inj hpass ▸ hv

/-- An engine with an interceptor and a function. -/
def guardedEngine : Environment := ⟨.register .empty "apply" 0, some 0, {}⟩

/-- A function that reads a member of what it is given. -/
def titleReader : Closure := ⟨["x"], .member (.variable "x") "title" false, .empty, guardedEngine⟩

/-- A function of the host that calls an older closure with a page: the page is not asked. -/
theorem mediated_titleReader :
    World.GuardedBy (· = 0) (⟨(), #[titleReader]⟩ : World Unit) ∧
      guardedEngine.GuardedBy (· = 0) ∧ (pageGuard id).Denies 0 "page" ∧
      (pageGuard id).NeverYields 0 "page" ∧
      ∃ answer w₁ log,
        (evaluate (pageGuard id).logged guardedEngine
          ((Context.empty.insert "read" (.function (.closure 0))).insert "page" (.host ⟨0, "page"⟩))
          (.call "apply" [.variable "read", .variable "page"])).runIn
            (World.beside ⟨(), #[titleReader]⟩ []) = (answer, World.beside w₁ log) ∧
        ∀ call ∈ log, ∀ object ∈ call.object?, object.typeName ≠ "page" := by
  have hengine : guardedEngine.GuardedBy (· = 0) := ⟨0, rfl, rfl⟩
  have hworld : World.GuardedBy (· = 0) (⟨(), #[titleReader]⟩ : World Unit) := by
    intro c hc
    rw [Array.mem_singleton.1 hc]
    exact hengine
  refine ⟨hworld, hengine, denies_pageGuard id, neverYields_pageGuard, ?_⟩
  obtain ⟨answer, w₁, journal, log, -, hrun, -, -, -, -, hkept⟩ :=
    (mediated_of_guardedBy (pageGuard id) hworld).1 guardedEngine hengine
      ((Context.empty.insert "read" (.function (.closure 0))).insert "page" (.host ⟨0, "page"⟩))
      (.call "apply" [.variable "read", .variable "page"])
  refine ⟨answer, w₁, log, hrun, fun call hcall object hobject => ?_⟩
  exact (hkept "page" (fun _ hi => hi ▸ denies_pageGuard id) call hcall object hobject).2
    fun _ hi => hi ▸ neverYields_pageGuard

/-- An interceptor that fails for all pages does not keep them from being read if it answers one in
the place of a text, nor does it if the closure that reads them was made by another engine, which
has no interceptor. -/
theorem exists_denied_object_asked :
    let page : HostObject := ⟨0, "page"⟩
    let reader : Closure := { titleReader with environment := ⟨.empty, none, {}⟩ }
    let context := (Context.empty.insert "read" (.function (.closure 0))).insert "page" (.host page)
    let asked : List HostCall := [.hasMethod page "title", .property page "title"]
    guardedEngine.GuardedBy (· = 0) ∧
      ((pageGuard fun _ => .host page).Denies 0 "page" ∧
        (evaluate (pageGuard fun _ => .host page).logged guardedEngine .empty
          (.member (.literal (.string "home")) "title" false)).runIn (World.beside ⟨(), #[]⟩ []) =
            (.ok .null, World.beside ⟨(), #[]⟩ (.intercept 0 (.string "home") :: asked))) ∧
      (pageGuard id).Denies 0 "page" ∧ (pageGuard id).NeverYields 0 "page" ∧
        (evaluate (pageGuard id).logged guardedEngine context
          (.call "apply" [.variable "read", .variable "page"])).runIn
            (World.beside ⟨(), #[reader]⟩ []) = (.ok .null, World.beside ⟨(), #[reader]⟩
              (.call 0 [.function (.closure 0), .host page] :: asked)) := by
  intro page reader context asked
  exact ⟨⟨0, rfl, rfl⟩, ⟨denies_pageGuard _, rfl⟩, denies_pageGuard id, neverYields_pageGuard, rfl⟩

end PathQuery
