/-
Which lazy values expressions give as they are, and where these come from.

* **`Origin`, `Account`** — an account of the lazy values that expressions give;
* **`StepGives`** — the account of one node, out of that of the nodes below it;
* **`GivesAt`** — the account of a level;
* **`gives_step`, `isOf_evalAt`** — a lazy value is given if and only if it is in the account;
* **`Host.Forces`** — the host gives no lazy values of its own;
* **`evaluate_eq_deferred_iff`** — whole evaluations.

Design notes: an account follows the parts of a node whose value the node passes on; all other
nodes make values of their own, which are not lazy.  Errors are in no account.
-/
import PathQuery.Proofs.Evaluation.Ends
import PathQuery.Proofs.Host.Journal

namespace PathQuery

variable {σ : Type}

/-! ### Accounts -/

/-- The entry of a collection that a member names. -/
def Value.entry? : Value → String → Option Value
  | .array items, member => (readIndex? member.toList).bind (items[·]?)
  | .object fields, member => fields.lookup member
  | _, _ => none

/-- The element that a built-in method takes out of a collection. -/
def Value.element? : Value → String → Option Value
  | .array items, "first" => items.head?
  | .array items, "last" => items.getLast?
  | .array items, "min" => Collection.extreme? .lt items
  | .array items, "max" => Collection.extreme? .gt items
  | .object fields, "first" => fields.head?.map (·.2)
  | .object fields, "last" => fields.getLast?.map (·.2)
  | _, _ => none

/-- Where a lazy value comes from: the host has answered a request with it, or a built-in method has
taken it out of a collection. -/
inductive Origin where
  | answered
  | taken
deriving DecidableEq, Repr

/-- The lazy values that expressions give, and their origins. -/
abbrev Account (σ : Type) :=
  Environment → Context → Expr → World σ → Origin → LazyRef → Prop

section

variable (host : Host σ) (below : Evaluator σ) (inner : Account σ)

/-- The host answers a request with a lazy value. -/
def Answers (run : σ → HostRun σ) (w : World σ) (origin : Origin) (lazy : LazyRef) : Prop :=
  origin = .answered ∧ (request below run).Gives w lazy

/-- A member that has been found gives a lazy value. -/
def EntryGives (args : Option (List Value)) (entry : Value) (w : World σ) (origin : Origin)
    (lazy : LazyRef) : Prop :=
  match entry, args with
  | .function (.host id), some args => Answers below (host.call id args) w origin lazy
  | .function (.closure index), some args =>
    ∃ c, w.closures[index]? = some c ∧
      inner c.environment (c.scope args) c.body w origin lazy
  | .deferred entry, _ => Answers below (host.force entry) w origin lazy
  | _, _ => False

/-- A member access gives a lazy value. -/
def AccessGives (target : Value) (member : String) (args : Option (List Value)) (w : World σ)
    (origin : Origin) (lazy : LazyRef) : Prop :=
  match target with
  | .host object =>
    (Eval.onState (host.hasMethod object member)).EndsIn w fun isMethod w₁ =>
      if isMethod then
        Answers below (host.callMethod object member (args.getD [])) w₁ origin lazy
      else
        (Eval.onState (host.property object member)).EndsIn w₁ fun found w₂ =>
          ∃ entry, found = some entry ∧ EntryGives host below inner args entry w₂ origin lazy
  | collection =>
    match collection.entry? member with
    | some entry => EntryGives host below inner args entry w origin lazy
    | none => origin = .taken ∧ collection.element? member = some (.deferred lazy)

/-- The node at the top of an expression gives a lazy value. -/
def StepGives : Account σ := fun env context expr w origin lazy =>
  match expr with
  | .variable name =>
    match context.get? name with
    | some (.deferred entry) => Answers below (host.force entry) w origin lazy
    | some _ => False
    | none => ∃ function, env.globals.get? name = some function ∧
        Answers below (host.call function []) w origin lazy
  | .member object name nullSafe =>
    (memberObject host below env context object).EndsIn w fun found w₁ =>
      (nullSafe && found.isNull) = false ∧
        (intercept host below env found).EndsIn w₁ fun target w₂ =>
          AccessGives host below inner target name none w₂ origin lazy
  | .memberCall object name arguments nullSafe =>
    (memberObject host below env context object).EndsIn w fun found w₁ =>
      (nullSafe && found.isNull) = false ∧
        (arguments.mapM (below env context)).EndsIn w₁ fun args w₂ =>
          (intercept host below env found).EndsIn w₂ fun target w₃ =>
            AccessGives host below inner target name (some args) w₃ origin lazy
  | .call name arguments =>
    ∃ function, env.globals.get? name = some function ∧
      (arguments.mapM (below env context)).EndsIn w fun args w₁ =>
        Answers below (host.call function args) w₁ origin lazy
  | .coalesce left right =>
    inner env context left w origin lazy ∨
      (below env context left).EndsIn w fun v w₁ =>
        v.isNull = true ∧ inner env context right w₁ origin lazy
  | .ternary condition whenTrue otherwise =>
    (below env context condition).EndsIn w fun v w₁ =>
      inner env context (if v.isTruthy then whenTrue else otherwise) w₁ origin lazy
  | .elvis condition otherwise =>
    inner env context condition w origin lazy ∨
      (below env context condition).EndsIn w fun v w₁ =>
        v.isTruthy = false ∧ inner env context otherwise w₁ origin lazy
  | _ => False

end

/-- The lazy values that expressions give at a level. -/
def GivesAt (host : Host σ) : (levels depth : Nat) → Account σ
  | 0, _ => fun _ _ _ _ _ _ => False
  | levels + 1, depth => fun env context expr w origin lazy =>
    depth < env.options.maxDepth ∧
      StepGives host (evalAt host levels (depth + 1)) (GivesAt host levels (depth + 1)) env context
        expr w origin lazy

/-- An account is right if an evaluator gives the lazy values that are in it. -/
def Account.IsOf (inner : Account σ) (below : Evaluator σ) : Prop :=
  ∀ env context e w lazy,
    (below env context e).Gives w lazy ↔ ∃ origin, inner env context e w origin lazy

/-! ### Values of their own -/

@[simp] theorem Value.ofLength_ne_deferred (n : Nat) (lazy : LazyRef) :
    Value.ofLength n ≠ .deferred lazy := Value.noConfusion

@[simp] theorem Value.float_ne_deferred (x : Binary64) (lazy : LazyRef) :
    Value.float x ≠ .deferred lazy := Value.noConfusion

theorem arithmetic_ne_deferred (op : ArithmeticOp) (left right : Value) (lazy : LazyRef) :
    arithmetic op left right ≠ .ok (.deferred lazy) := by
  rw [arithmetic]
  cases operand op left <;> cases operand op right <;>
    simp only [bind, Except.bind, ne_eq, reduceCtorEq, not_false_eq_true]
  -- There are two numbers, and what the operators give is a number or an error.
  cases op with
  | divide | modulo =>
    dsimp only
    split <;> simp [pure, Except.pure, throw, throwThe, MonadExceptOf.throw]
  | _ => simp [pure, Except.pure]

theorem comparison_ne_deferred (op : ComparisonOp) (left right : Value) (lazy : LazyRef) :
    comparison op left right ≠ .ok (.deferred lazy) := by
  rw [comparison]
  cases compares op left right <;> simp [Except.map]

/-! ### Members -/

theorem getD_null_eq_deferred {found : Option Value} {lazy : LazyRef} :
    found.getD .null = .deferred lazy ↔ found = some (.deferred lazy) := by
  cases found <;> simp

section

variable {host : Host σ} {below : Evaluator σ} {inner : Account σ} {w : World σ} {lazy : LazyRef}

/-- Only four of the methods of an array give what the array holds; the others make values. -/
theorem gives_arrayMethod {select : Collection.Select σ} {name : String} {items args : List Value} :
    ((Collection.arrayMethod? select name items args).getD (return .null)).Gives w lazy ↔
      (Value.array items).element? name = some (.deferred lazy) := by
  have hplain : ∀ {m : Eval σ Value}, m.IsPlain →
      (m.Gives w lazy ↔ (none : Option Value) = some (.deferred lazy)) :=
    fun hm => iff_of_false (hm w lazy) (by simp)
  unfold Collection.arrayMethod?
  split
  case h_3 | h_4 | h_13 | h_14 => exact getD_null_eq_deferred
  case h_7 | h_8 => exact hplain (.bind fun _ => .bind fun _ => .pure (by simp))
  case h_9 =>
    refine hplain ?_
    rw [Option.getD_some, Collection.pluck]
    split
    · exact .bind fun _ => .pure (by simp)
    · exact .throw _
  case h_15 =>
    refine hplain (.bind fun ns => ?_)
    split <;> exact .pure (by simp)
  case h_10 | h_11 | h_12 => exact hplain (.bind fun _ => .pure (by simp))
  case h_17 =>
    refine hplain (.bind fun keys => ?_)
    cases Collection.sortByKey (items.zip keys) with
    | some entries => exact .pure (by simp)
    | none => exact .throw _
  case h_21 =>
    have hnone : (Value.array items).element? name = none := by
      unfold Value.element?
      split <;> simp_all
    rw [hnone]
    exact hplain (.pure (by simp))
  all_goals exact hplain (.pure (by simp))

/-- Two of the methods of an object give what it holds. -/
theorem objectMethod_eq_deferred {name : String} {fields : List (String × Value)} :
    (Collection.objectMethod? name fields).getD .null = .deferred lazy ↔
      (Value.object fields).element? name = some (.deferred lazy) := by
  unfold Collection.objectMethod?
  split
  case h_5 | h_6 =>
    rw [Option.getD_some]
    exact getD_null_eq_deferred
  case h_9 =>
    have hnone : (Value.object fields).element? name = none := by
      unfold Value.element?
      split <;> simp_all
    rw [hnone]
    simp
  all_goals simp [Value.element?]

/-- What a request gives is an answer. -/
theorem gives_request {run : σ → HostRun σ} :
    (request below run).Gives w lazy ↔ ∃ origin, Answers below run w origin lazy := by
  simp only [Answers, exists_eq_left]

/-- A variable gives what the host answers for it. -/
theorem gives_variable {env : Environment} {context : Context} {name : String} :
    (step host below env context (.variable name)).Gives w lazy ↔
      ∃ origin, StepGives host below inner env context (.variable name) w origin lazy := by
  simp only [StepGives, step, resolve]
  cases context.get? name with
  | some v =>
    refine (Eval.endsIn_bind.trans Eval.endsIn_bind).trans ?_
    change (force host below v).Gives w lazy ↔ _
    cases v with
    | deferred entry => exact gives_request
    | _ => simp [force]
  | none =>
    cases env.globals.get? name with
    | some function =>
      simp only [Option.some.injEq, exists_eq_left']
      exact (Eval.endsIn_bind.trans Eval.endsIn_bind).trans gives_request
    | none =>
      -- All variables together are an object, and what no name has is null or an error.
      by_cases hname : name = contextAlias
      · simp [hname]
      · cases env.options.strictVariables <;> simp [hname]

variable (hinner : inner.IsOf below)
include hinner

theorem gives_callClosure {index : Nat} {args : List Value} :
    (callClosure below index args).Gives w lazy ↔
      ∃ origin c, w.closures[index]? = some c ∧
        inner c.environment (c.scope args) c.body w origin lazy := by
  refine Eval.endsIn_bind.trans (Eval.endsIn_get.trans ?_)
  cases w.closures[index]? with
  | none => simp
  | some c =>
    simp only [Option.some.injEq, exists_eq_left']
    exact hinner c.environment (c.scope args) c.body w lazy

theorem gives_useEntry {member : String} {args : Option (List Value)} {entry : Value} :
    (useEntry host below member args entry).Gives w lazy ↔
      ∃ origin, EntryGives host below inner args entry w origin lazy := by
  cases entry with
  | function f =>
    cases args with
    | none => cases f <;> simp [useEntry, EntryGives]
    | some args =>
      cases f with
      | host id => exact gives_request
      | closure index => exact gives_callClosure hinner
  | deferred entry => exact gives_request
  | _ =>
    refine iff_of_false ?_ (by simp [EntryGives])
    change ¬ Eval.Gives (if args.isSome then throw _ else return _) w lazy
    split
    · exact Eval.not_gives_throw
    · simp

theorem gives_access {select : Collection.Select σ} {target : Value} {member : String}
    {args : Option (List Value)} :
    (access host below select target member args).Gives w lazy ↔
      ∃ origin, AccessGives host below inner target member args w origin lazy := by
  cases target with
  | array items =>
    simp only [access, AccessGives, Value.entry?]
    cases (readIndex? member.toList).bind (items[·]?) with
    | some entry => exact gives_useEntry hinner
    | none =>
      simp only [exists_eq_left]
      exact gives_arrayMethod
  | object fields =>
    simp only [access, AccessGives, Value.entry?]
    cases fields.lookup member with
    | some entry => exact gives_useEntry hinner
    | none =>
      simp only [exists_eq_left]
      exact objectMethod_eq_deferred
  | host object =>
    simp only [access, AccessGives]
    refine Eval.endsIn_bind.trans (Iff.trans ?_ Eval.endsIn_exists)
    refine Eval.endsIn_congr fun isMethod w₁ => ?_
    cases isMethod with
    | true => exact gives_request
    | false =>
      simp only [Bool.false_eq_true, if_false]
      refine Eval.endsIn_bind.trans (Iff.trans ?_ Eval.endsIn_exists)
      refine Eval.endsIn_congr fun found w₂ => ?_
      cases found with
      | none => simp
      | some entry =>
        simp only [Option.some.injEq, exists_eq_left']
        exact gives_useEntry hinner
  | _ =>
    exact iff_of_false Eval.not_gives_throw (by simp [AccessGives, Value.entry?, Value.element?])

theorem gives_member {env : Environment} {found : Value} {name : String}
    {args : Option (List Value)} :
    (do
      let target ← intercept host below env found
      access host below (select host below env) target name args).Gives w lazy ↔
      ∃ origin, (intercept host below env found).EndsIn w fun target w' =>
        AccessGives host below inner target name args w' origin lazy :=
  Eval.gives_bind fun _ _ => gives_access hinner

theorem gives_step {env : Environment} {context : Context} {e : Expr} :
    (step host below env context e).Gives w lazy ↔
      ∃ origin, StepGives host below inner env context e w origin lazy := by
  cases e with
  | literal v => cases v <;> simp [step, StepGives, Literal.value]
  | «variable» name => exact gives_variable
  | member object name nullSafe =>
    rw [step]
    refine Eval.gives_bind fun found w₁ => ?_
    cases hnull : nullSafe && found.isNull with
    | true => simp
    | false =>
      simp only [true_and]
      exact gives_member hinner
  | memberCall object name args nullSafe =>
    rw [step]
    refine Eval.gives_bind fun found w₁ => ?_
    cases hnull : nullSafe && found.isNull with
    | true => simp
    | false =>
      simp only [true_and]
      exact Eval.gives_bind fun args w₂ => gives_member hinner
  | call name args =>
    simp only [StepGives, step]
    cases env.globals.get? name with
    | none => simp
    | some function =>
      simp only [Option.some.injEq, exists_eq_left']
      exact Eval.gives_bind fun args w₁ => gives_request
  | coalesce l r =>
    rw [step]
    exact Eval.gives_unless Bool.false_ne_true (fun _ hnull => if_pos hnull)
      (fun _ hnull => if_neg hnull) (hinner env context l w lazy) fun w₁ =>
        hinner env context r w₁ lazy
  | ternary c t o =>
    rw [step]
    refine Eval.gives_bind fun v w₁ => ?_
    cases v.isTruthy with
    | true => exact hinner env context t w₁ lazy
    | false => exact hinner env context o w₁ lazy
  | elvis c o =>
    rw [step]
    exact Eval.gives_unless (p := fun v => v.isTruthy = false) (by simp [Value.isTruthy])
      (fun _ hfalse => if_neg (Bool.eq_false_iff.1 hfalse))
      (fun _ htrue => if_pos ((Bool.not_eq_false _).mp htrue))
      (hinner env context c w lazy) fun w₁ => hinner env context o w₁ lazy
  | closure params body =>
    have hplain : (step host below env context (.closure params body)).IsPlain := by
      rw [step]
      exact .bind fun _ => .pure (by simp)
    exact iff_of_false (hplain w lazy) (by simp [StepGives])
  | arithmetic op l r =>
    have hplain : (step host below env context (.arithmetic op l r)).IsPlain :=
      .bind fun _ => .bind fun _ => .ofExcept (arithmetic_ne_deferred op _ _)
    exact iff_of_false (hplain w lazy) (by simp [StepGives])
  | comparison op l r =>
    have hplain : (step host below env context (.comparison op l r)).IsPlain :=
      .bind fun _ => .bind fun _ => .ofExcept (comparison_ne_deferred op _ _)
    exact iff_of_false (hplain w lazy) (by simp [StepGives])
  | logical op l r =>
    have hplain : (step host below env context (.logical op l r)).IsPlain := by
      rw [step]
      exact .bind fun _ => .bind fun _ => .pure (by simp)
    exact iff_of_false (hplain w lazy) (by simp [StepGives])
  | list es | arguments es =>
    have hplain : (es.mapM (below env context) >>= fun vs => return .array vs).IsPlain :=
      .bind fun _ => .pure (by simp)
    exact iff_of_false (hplain w lazy) (by simp [StepGives])

end

/-! ### Levels -/

/-- The account of each level is right, by induction on the levels. -/
theorem isOf_evalAt (host : Host σ) (levels : Nat) :
    ∀ depth, (GivesAt host levels depth).IsOf (evalAt host levels depth) := by
  induction levels with
  | zero =>
    intro depth env context e w lazy
    exact iff_of_false Eval.not_gives_throw (by simp [GivesAt])
  | succ levels ih =>
    intro depth env context e w lazy
    rcases Nat.lt_or_ge depth env.options.maxDepth with h | h
    · rw [evalAt_of_lt h, gives_step (ih (depth + 1))]
      simp only [GivesAt, h, true_and]
    · rw [evalAt_of_le h]
      exact iff_of_false Eval.not_gives_throw fun ⟨_, hlt, _⟩ => Nat.not_lt.2 h hlt

/-! ### Origins -/

/-- Computing a lazy value gives no lazy value, and neither does a function or a method of the host,
whatever closures answer meanwhile. -/
structure Host.Forces (host : Host σ) : Prop where
  call : ∀ function args s lazy, ¬ (host.call function args s).MayAnswer (.ok (.deferred lazy))
  force : ∀ entry s lazy, ¬ (host.force entry s).MayAnswer (.ok (.deferred lazy))
  callMethod : ∀ object name args s lazy,
    ¬ (host.callMethod object name args s).MayAnswer (.ok (.deferred lazy))

theorem forces_constant {v : Value} (h : ∀ lazy, v ≠ .deferred lazy) :
    (Host.constant v).Forces where
  call _ _ _ lazy hv := h lazy (Except.ok.inj hv)
  force _ _ lazy hv := h lazy (Except.ok.inj hv)
  callMethod _ _ _ _ lazy hv := h lazy (Except.ok.inj hv)

section

variable {host : Host σ} {below : Evaluator σ} {inner : Account σ} {w : World σ} {origin : Origin}
  {lazy : LazyRef}

theorem not_answers {run : σ → HostRun σ} (h : ∀ s, ¬ (run s).MayAnswer (.ok (.deferred lazy))) :
    ¬ Answers below run w origin lazy := by
  rintro ⟨-, hgives⟩
  have hanswer : (run w.state).MayAnswer ((request below run).runIn w).1 :=
    HostRun.mayAnswer_runIn (run w.state) w
  rw [Eval.gives_iff.1 hgives] at hanswer
  exact h w.state hanswer

variable (hhost : host.Forces)
  (hinner : ∀ env context e w, ¬ inner env context e w .answered lazy)
include hhost hinner

theorem not_entryGives {args : Option (List Value)} {entry : Value} :
    ¬ EntryGives host below inner args entry w .answered lazy := by
  intro h
  unfold EntryGives at h
  split at h
  · exact not_answers (fun s => hhost.call _ _ s lazy) h
  · obtain ⟨c, -, hbody⟩ := h
    exact hinner _ _ _ w hbody
  · exact not_answers (fun s => hhost.force _ s lazy) h
  · exact h

theorem not_accessGives {target : Value} {member : String} {args : Option (List Value)} :
    ¬ AccessGives host below inner target member args w .answered lazy := by
  intro h
  unfold AccessGives at h
  split at h
  · obtain ⟨isMethod, w₁, -, h⟩ := h.exists_runIn
    split at h
    · exact not_answers (fun s => hhost.callMethod _ _ _ s lazy) h
    · obtain ⟨found, w₂, -, entry, -, h⟩ := h.exists_runIn
      exact not_entryGives hhost hinner h
  · split at h
    · exact not_entryGives hhost hinner h
    · exact Origin.noConfusion h.1

theorem not_stepGives {env : Environment} {context : Context} {e : Expr} :
    ¬ StepGives host below inner env context e w .answered lazy := by
  intro h
  -- What a node passes on comes from a request, an access or a node below.
  cases e with
  | «variable» name =>
    unfold StepGives at h
    dsimp only at h
    split at h
    · exact not_answers (fun s => hhost.force _ s lazy) h
    · exact h
    · obtain ⟨function, -, h⟩ := h
      exact not_answers (fun s => hhost.call function [] s lazy) h
  | member object name nullSafe =>
    obtain ⟨found, w₁, -, -, h⟩ := Eval.EndsIn.exists_runIn h
    obtain ⟨target, w₂, -, h⟩ := h.exists_runIn
    exact not_accessGives hhost hinner h
  | memberCall object name arguments nullSafe =>
    obtain ⟨found, w₁, -, -, h⟩ := Eval.EndsIn.exists_runIn h
    obtain ⟨args, w₂, -, h⟩ := h.exists_runIn
    obtain ⟨target, w₃, -, h⟩ := h.exists_runIn
    exact not_accessGives hhost hinner h
  | call name arguments =>
    obtain ⟨function, -, h⟩ := h
    obtain ⟨args, w₁, -, h⟩ := h.exists_runIn
    exact not_answers (fun s => hhost.call function args s lazy) h
  | coalesce left right =>
    obtain h | h := h
    · exact hinner env context left w h
    · obtain ⟨v, w₁, -, -, h⟩ := h.exists_runIn
      exact hinner env context right w₁ h
  | ternary condition whenTrue otherwise =>
    obtain ⟨v, w₁, -, h⟩ := Eval.EndsIn.exists_runIn h
    exact hinner env context _ w₁ h
  | elvis condition otherwise =>
    obtain h | h := h
    · exact hinner env context condition w h
    · obtain ⟨v, w₁, -, -, h⟩ := h.exists_runIn
      exact hinner env context otherwise w₁ h
  | _ => exact h

omit hinner in
/-- A host that forces leaves only what has been taken out, on all levels. -/
theorem not_givesAt (levels depth : Nat) (env : Environment) (context : Context) (e : Expr) :
    ¬ GivesAt host levels depth env context e w .answered lazy := by
  induction levels generalizing depth env context e w with
  | zero => exact id
  | succ levels ih =>
    rintro ⟨-, h⟩
    exact not_stepGives hhost (fun env context e w => ih (depth + 1) env context e (w := w)) h

end

theorem not_givesAt_variable {host : Host σ} {levels depth : Nat} {env : Environment}
    {context : Context} {name : String} {w : World σ} {lazy : LazyRef} :
    ¬ GivesAt host levels depth env context (.variable name) w .taken lazy := by
  cases levels with
  | zero => exact id
  | succ levels =>
    rintro ⟨-, h⟩
    unfold StepGives at h
    dsimp only at h
    split at h
    · exact Origin.noConfusion h.1
    · exact h
    · obtain ⟨_, _, h⟩ := h
      exact Origin.noConfusion h.1

theorem mem_of_element? {target v : Value} {member : String} (h : target.element? member = some v) :
    member ∈ ["first", "last", "min", "max"] := by
  unfold Value.element? at h
  split at h <;> simp_all

/-- A member access takes an element out itself, or calls a closure that does. -/
theorem cases_of_accessGives {host : Host σ} {below : Evaluator σ} {inner : Account σ}
    {target : Value} {member : String} {args : Option (List Value)} {w : World σ} {lazy : LazyRef}
    (h : AccessGives host below inner target member args w .taken lazy) :
    member ∈ ["first", "last", "min", "max"] ∨
      ∃ (c : Closure) (given : List Value) (w' : World σ), args = some given ∧
        inner c.environment (c.scope given) c.body w' .taken lazy := by
  have hentry : ∀ {entry w}, EntryGives host below inner args entry w .taken lazy →
      ∃ (c : Closure) (given : List Value) (w' : World σ), args = some given ∧
        inner c.environment (c.scope given) c.body w' .taken lazy := by
    intro entry w hentry
    unfold EntryGives at hentry
    split at hentry
    · exact Origin.noConfusion hentry.1
    · obtain ⟨c, -, hbody⟩ := hentry
      exact ⟨c, _, w, rfl, hbody⟩
    · exact Origin.noConfusion hentry.1
    · exact hentry.elim
  unfold AccessGives at h
  split at h
  · obtain ⟨isMethod, w₁, -, h⟩ := h.exists_runIn
    split at h
    · exact Origin.noConfusion h.1
    · obtain ⟨found, w₂, -, entry, -, h⟩ := h.exists_runIn
      exact .inr (hentry h)
  · split at h
    · exact .inr (hentry h)
    · exact .inl (mem_of_element? h.2)

/-- Without arguments no closure is called. -/
theorem mem_of_givesAt_member {host : Host σ} {levels depth : Nat} {env : Environment}
    {context : Context} {object : Expr} {name : String} {nullSafe : Bool} {w : World σ}
    {lazy : LazyRef}
    (h : GivesAt host levels depth env context (.member object name nullSafe) w .taken lazy) :
    name ∈ ["first", "last", "min", "max"] := by
  cases levels with
  | zero => exact h.elim
  | succ levels =>
    obtain ⟨-, h⟩ := h
    obtain ⟨found, w₁, -, -, h⟩ := Eval.EndsIn.exists_runIn h
    obtain ⟨target, w₂, -, h⟩ := h.exists_runIn
    obtain hname | ⟨c, given, w', hargs, -⟩ := cases_of_accessGives h
    · exact hname
    · exact absurd hargs (by simp)

theorem cases_of_givesAt_memberCall {host : Host σ} {levels depth : Nat} {env : Environment}
    {context : Context} {object : Expr} {name : String} {arguments : List Expr} {nullSafe : Bool}
    {w : World σ} {lazy : LazyRef}
    (h : GivesAt host levels depth env context (.memberCall object name arguments nullSafe) w
      .taken lazy) :
    name ∈ ["first", "last", "min", "max"] ∨
      ∃ (c : Closure) (args : List Value) (w' : World σ),
        GivesAt host (levels - 1) (depth + 1) c.environment (c.scope args) c.body w' .taken
          lazy := by
  cases levels with
  | zero => exact h.elim
  | succ levels =>
    obtain ⟨-, h⟩ := h
    obtain ⟨found, w₁, -, -, h⟩ := Eval.EndsIn.exists_runIn h
    obtain ⟨args, w₂, -, h⟩ := h.exists_runIn
    obtain ⟨target, w₃, -, h⟩ := h.exists_runIn
    obtain hname | ⟨c, given, w', -, hbody⟩ := cases_of_accessGives h
    · exact .inl hname
    · exact .inr ⟨c, given, w', hbody⟩

/-! ### Whole evaluations -/

/-- An expression gives a lazy value exactly if the host has answered with it, or a built-in method
has taken it out of a collection.  A host that forces does not answer with any, and a variable takes
nothing out; a member does only if it is one of four, or calls a closure whose body does. -/
theorem evaluate_eq_deferred_iff (host : Host σ) (env : Environment) (context : Context) (e : Expr)
    (w : World σ) (lazy : LazyRef) :
    (((evaluate host env context e).runIn w).1 = .ok (.deferred lazy) ↔
        ∃ origin, GivesAt host (w.levels env) 0 env context e w origin lazy) ∧
      (host.Forces → ¬ GivesAt host (w.levels env) 0 env context e w .answered lazy) ∧
      (∀ name, e = .variable name → ¬ GivesAt host (w.levels env) 0 env context e w .taken lazy) ∧
      (∀ object name nullSafe, e = .member object name nullSafe →
        GivesAt host (w.levels env) 0 env context e w .taken lazy →
          name ∈ ["first", "last", "min", "max"]) ∧
      ∀ object name arguments nullSafe, e = .memberCall object name arguments nullSafe →
        GivesAt host (w.levels env) 0 env context e w .taken lazy →
          name ∈ ["first", "last", "min", "max"] ∨
            ∃ (c : Closure) (args : List Value) (w' : World σ),
              GivesAt host (w.levels env - 1) 1 c.environment (c.scope args) c.body w' .taken
                lazy := by
  refine ⟨?_, fun hhost => not_givesAt hhost _ 0 env context e, ?_, ?_, ?_⟩
  · rw [runIn_evaluate, ← Eval.gives_iff]
    exact isOf_evalAt host (w.levels env) 0 env context e w lazy
  · rintro name rfl
    exact not_givesAt_variable
  · rintro object name nullSafe rfl
    exact mem_of_givesAt_member
  · rintro object name arguments nullSafe rfl
    exact cases_of_givesAt_memberCall

/-- An engine without globals and interceptor. -/
def plainEngine : Environment := ⟨.empty, none, {}⟩

/-- A lazy value in an array. -/
def lazyItems : Context := .ofFields [("items", .array [.deferred ⟨0⟩])]

/-- By its index the element is forced. -/
theorem forced_index : (Host.constant (.integer 1)).Forces ∧
    ∀ lazy, ((evaluate (Host.constant (.integer 1)) plainEngine lazyItems
      (.member (.variable "items") "0" false)).runIn ⟨(), #[]⟩).1 ≠ .ok (.deferred lazy) := by
  have hforces : (Host.constant (.integer 1)).Forces := forces_constant (by simp [Value.integer])
  refine ⟨hforces, fun lazy hgives => ?_⟩
  obtain ⟨hiff, hanswered, -, htaken, -⟩ := evaluate_eq_deferred_iff (Host.constant (.integer 1))
    plainEngine lazyItems (.member (.variable "items") "0" false) ⟨(), #[]⟩ lazy
  obtain ⟨origin, horigin⟩ := hiff.1 hgives
  cases origin with
  | answered => exact hanswered hforces horigin
  | taken => exact absurd (htaken _ _ _ rfl horigin) (by decide)

/-- As the first element it is not. -/
theorem exists_unforced_element : (Host.constant (.integer 1)).Forces ∧
    ((evaluate (Host.constant (.integer 1)) plainEngine lazyItems
      (.member (.variable "items") "first" false)).runIn ⟨(), #[]⟩).1 = .ok (.deferred ⟨0⟩) :=
  ⟨forces_constant (by simp [Value.integer]), rfl⟩

end PathQuery
