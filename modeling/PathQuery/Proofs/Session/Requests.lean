/-
Sessions of any length.

* **`Request`, `Workspace.perform`** — what engines that share a store are asked, one after the
  other, each time with one of any number of contexts;
* **`Workspace.isSound_perform`, `Workspace.isSound_performAll`** — the store stays sound, in one
  step and in a whole session;
* **`Session.RunsFresh`** — how running a query compares with parsing and evaluating it afresh;
* **`Workspace.runsFresh_performAll`** — so do all runs of a session.

Design notes: engines differ in their environments only, so a request brings its own.  A tree may be
stored for a text only if it is the one that the text is parsed as; a tree that is merely equal to
it may hold a zero of the other sign, and then gives other answers.
-/
import PathQuery.Proofs.Session.FastPath

namespace PathQuery

/-- Something that is asked of an engine, of the store or of a context; contexts are numbered. -/
inductive Request where
  | run (env : Environment) (context : Nat) (query : String)
  | compile (query : String)
  | evaluate (env : Environment) (context : Nat) (tree : Expr)
  | lookup (query : String)
  | clear
  | define (context : Nat) (name : String) (value : Value)
  | insert (query : String) (tree : Expr)

/-- Only the tree of a text is stored for it. -/
def Request.IsAdmissible : Request → Prop
  | .insert query tree => Expr.parse query = .ok tree
  | _ => True

/-- A session and the contexts that its engines are given. -/
structure Workspace (σ : Type) where
  session : Session σ
  contexts : Nat → Context

namespace Workspace

variable {σ : Type}

/-- Nothing is stored yet. -/
def start (w : World σ) (contexts : Nat → Context) : Workspace σ := ⟨⟨.empty, w⟩, contexts⟩

/-- What a request leaves behind. -/
def perform (host : Host σ) (s : Workspace σ) : Request → Workspace σ
  | .run env context query =>
    { s with session := (s.session.run host env (s.contexts context) query).2 }
  | .compile query =>
    { s with session := { s.session with cache := (s.session.cache.compile query).2 } }
  | .evaluate env context tree =>
    let (_, world) :=
      (PathQuery.evaluate host env (s.contexts context) tree).runIn s.session.world
    { s with session := { s.session with world := world } }
  | .lookup _ => s
  | .clear => { s with session := { s.session with cache := s.session.cache.clear } }
  | .define context name value =>
    { s with contexts := fun other =>
        if other = context then (s.contexts context).insert name value else s.contexts other }
  | .insert query tree =>
    { s with session := { s.session with cache := (s.session.cache.insert query tree).2 } }

/-- What requests leave behind, made in order. -/
def performAll (host : Host σ) (s : Workspace σ) (requests : List Request) : Workspace σ :=
  requests.foldl (perform host) s

variable {host : Host σ} {s : Workspace σ}

theorem isSound_perform (hs : s.session.cache.IsSound) {request : Request}
    (h : request.IsAdmissible) : (s.perform host request).session.cache.IsSound := by
  cases request with
  | run env context query => exact Session.isSound_run hs query
  | compile query => exact hs.compile query
  | evaluate env context tree => exact hs
  | lookup query => exact hs
  | clear => exact QueryCache.isSound_clear _
  | define context name value => exact hs
  | insert query tree => exact hs.insert h

theorem isSound_performAll (hs : s.session.cache.IsSound) {requests : List Request}
    (h : ∀ request ∈ requests, request.IsAdmissible) :
    (s.performAll host requests).session.cache.IsSound := by
  induction requests generalizing s with
  | nil => exact hs
  | cons request rest ih =>
    have hfirst : (s.perform host request).session.cache.IsSound :=
      isSound_perform hs (h request List.mem_cons_self)
    exact ih hfirst fun request hrest => h request (List.mem_cons_of_mem _ hrest)

end Workspace

/-! ### A host that calls back -/

/-- A host whose functions call the first closure of the world. -/
def callingHost : Host Unit where
  call _ _ _ := .invoke 0 [] () fun answer s => .done answer s
  force _ _ := .done (.ok .null) ()
  intercept _ v _ := .done (.ok v) ()
  hasMethod _ _ _ := (false, ())
  callMethod _ _ _ _ := .done (.ok .null) ()
  property _ _ _ := (none, ())

/-- An engine with a single level and a function named `g`. -/
def singleLevel : Environment := ⟨.register .empty "g" 0, none, ⟨1, false⟩⟩

/-- A world with a closure that answers null. -/
def nullWorld : World (Unit × List HostCall) :=
  ⟨((), []), #[⟨[], .literal .null, .empty, singleLevel⟩]⟩

/-! ### Runs in a session -/

variable {σ : Type}

/-- How running a query in a session compares with parsing and evaluating it afresh.  The outcomes
hold the log of the host. -/
structure Session.RunsFresh (s : Session (σ × List HostCall)) (host : Host σ) (env : Environment)
    (context : Context) (q : String) : Prop where
  /-- A query that cannot be parsed is not stored. -/
  unparsed : ∀ e, Expr.parse q = .error e → (s.run host.logged env context q).2.cache = s.cache
  /-- A bare name that is not unknown is not stored. -/
  known : isBareName q = true →
    ((resolveName host.logged env q context).runIn s.world).1 ≠ .ok none →
      (s.run host.logged env context q).2.cache = s.cache
  /-- Nothing shows, unless the host calls a closure to answer for a bare name. -/
  fresh : 0 < env.options.maxDepth →
    (isBareName q = true → host.AnswersDirectly q context env.globals s.world.state.1) →
      s.outcome host.logged env context q = freshRun host.logged env context q s.world
  /-- A bare name takes no level. -/
  name : 0 < env.options.maxDepth → isBareName q = true →
    s.outcome host.logged env context q = nameRun host.logged env context q s.world
  /-- Without levels it shows exactly in the bare names that are not unknown. -/
  zero : env.options.maxDepth = 0 →
    (s.outcome host.logged env context q ≠ freshRun host.logged env context q s.world ↔
      isBareName q = true ∧
        ((resolveName host.logged env q context).runIn s.world).1 ≠ .ok none)

theorem Session.runsFresh_of_isSound {s : Session (σ × List HostCall)} (hs : s.cache.IsSound)
    (host : Host σ) (env : Environment) (context : Context) (q : String) :
    s.RunsFresh host env context q where
  unparsed _ h := cache_run_of_unparsed hs h
  known hb h := cache_run_of_known hb h
  fresh henv hdirect := outcome_eq_freshRun hs henv fun hb => (hdirect hb).logged
  name henv hb := outcome_eq_nameRun hs hb henv
  zero henv := outcome_ne_freshRun_iff hs henv

/-- In any session that starts with nothing stored, each stored tree is the one of its text, and
each run comes to what parsing and evaluating afresh come to. -/
theorem Workspace.runsFresh_performAll (host : Host σ) (w : World (σ × List HostCall))
    (contexts : Nat → Context) {requests : List Request}
    (h : ∀ request ∈ requests, request.IsAdmissible) :
    ((start w contexts).performAll host.logged requests).session.cache.IsSound ∧
      ∀ env context q, Session.RunsFresh
        ((start w contexts).performAll host.logged requests).session host env context q := by
  have hs : ((start w contexts).performAll host.logged requests).session.cache.IsSound :=
    isSound_performAll QueryCache.isSound_empty h
  exact ⟨hs, fun env context q => Session.runsFresh_of_isSound hs host env context q⟩

theorem runsFresh_after_insert :
    ((Workspace.start nullWorld fun _ => .empty).performAll callingHost.logged
        [.insert "a.b" (.member (.variable "a") "b" false),
          .run singleLevel 0 "g"]).session.outcome callingHost.logged singleLevel .empty "a.b" =
      freshRun callingHost.logged singleLevel .empty "a.b"
        ((Workspace.start nullWorld fun _ => .empty).performAll callingHost.logged
          [.insert "a.b" (.member (.variable "a") "b" false),
            .run singleLevel 0 "g"]).session.world := by
  refine ((Workspace.runsFresh_performAll callingHost nullWorld (fun _ => .empty) ?_).2 singleLevel
    .empty "a.b").fresh (by decide) fun hb => absurd hb (by decide)
  intro request hrequest
  rcases List.mem_cons.1 hrequest with rfl | hrest
  · exact rfl
  · obtain rfl := List.mem_singleton.1 hrest
    trivial

/-! ### Where runs are not fresh -/

/-- The text of a float, by way of a list with nothing else in it. -/
def joinedZero (zero : Binary64) : Expr :=
  .memberCall (.list [.literal (.number (.float zero))]) "join" [.literal (.string ",")] false

/-- The text of an answer. -/
def answerText : Except QueryError Value → String
  | .ok v => v.text
  | .error e => e.message

/-- Runs are not fresh after a tree was stored for a text whose own tree is equal to it up to the
sign of zero, and neither is that of a bare name for which the host calls a closure. -/
theorem exists_outcome_ne_freshRun :
    (∃ (env : Environment) (q : String) (own stored : Expr), 0 < env.options.maxDepth ∧
      Expr.parse q = .ok own ∧ stored.same own = true ∧
      ((Workspace.start nullWorld fun _ => .empty).performAll callingHost.logged
        [.insert q stored]).session.outcome callingHost.logged env .empty q ≠
          freshRun callingHost.logged env .empty q nullWorld) ∧
    ∃ (env : Environment) (q : String), 0 < env.options.maxDepth ∧
      (Workspace.start nullWorld fun _ => .empty).session.outcome callingHost.logged env .empty q ≠
        freshRun callingHost.logged env .empty q nullWorld := by
  constructor
  · obtain ⟨own, hp, hsame⟩ := Parser.exists_parse_of_any "[0.0].join(',')"
      (joinedZero (-.zero)).same (by decide +kernel)
    refine ⟨⟨.empty, none, {}⟩, _, own, joinedZero (-.zero), by decide, hp, hsame, fun heq => ?_⟩
    -- The stored tree writes the zero with its sign.
    exact absurd (congrArg (fun outcome => answerText outcome.1) heq) (by decide +kernel)
  · -- The closure that `g` calls is on the first level here, and on a second one in the fresh run.
    refine ⟨singleLevel, "g", by decide, fun heq => ?_⟩
    exact absurd (congrArg (fun outcome => answerText outcome.1) heq) (by decide +kernel)

end PathQuery
