/-
Evaluations that run alike until one of them comes to the limit of depth.

* **`StaysBelow`** — whatever runs at a level, without coming to the limit;
* **`crowding`** — an evaluator that makes too many closures;
* **`Eval.Agrees`** — two evaluations run alike unless the first one makes too many closures;
* **`Composed.agrees`** — evaluations agree if the levels below do;
* **`evalOr_agrees_above`** — with `crowding` at the limit, a level agrees with steps that know no
  limit;
* **`StaysBelow.runIn_eq`** — so what stays below the limit runs as if there were none.

Design notes: closures are never lost, so the closures made at the limit are still there at the
end, whatever the host has made of the answers meanwhile.  A number of closures that an evaluation
does not come to is at hand: that of its last world.
-/
import PathQuery.Proofs.Evaluation.Keeps
import PathQuery.Proofs.Evaluation.Limit

namespace PathQuery

variable {σ : Type} {α β : Type}

/-- What runs at a level does not come to the limit of depth: nothing that could be done there would
change it.  For whole evaluations this is `StaysBelowLimit`. -/
def StaysBelow (host : Host σ) (levels depth : Nat) (run : Evaluator σ → Eval σ α) (w : World σ) :
    Prop :=
  ∀ atLimit : Nat → Evaluator σ,
    (run (evalOr host atLimit levels depth)).runIn w = (run (evalAt host levels depth)).runIn w

/-- What runs the same whatever is done at the limit stays below it. -/
theorem staysBelow_of_forall_eq {host : Host σ} {levels depth : Nat} {run : Evaluator σ → Eval σ α}
    {w : World σ} {r : Except EvalError α × World σ}
    (h : ∀ atLimit, (run (evalOr host atLimit levels depth)).runIn w = r) :
    StaysBelow host levels depth run w := by
  intro atLimit
  rw [evalAt_eq_evalOr, h, h]

/-! ### Growing worlds -/

/-- Closures are added to the table, and those in it keep their places. -/
def growth (σ : Type) : WorldOrder σ where
  rel w w' := ∀ i c, w.closures[i]? = some c → w'.closures[i]? = some c
  refl _ _ _ h := h
  trans h h' i c hc := h' i c (h i c hc)
  closure w c i c' h := by
    have hi : i < w.closures.size := (Array.getElem?_eq_some_iff.1 h).1
    rw [Array.getElem?_push_lt hi, ← h, Array.getElem?_eq_getElem hi]

/-- A larger world has no smaller table. -/
theorem size_le_of_growth {w w' : World σ} (h : (growth σ).rel w w') :
    w.closures.size ≤ w'.closures.size := by
  refine Nat.le_of_not_lt fun hlt => ?_
  have hlast := h _ _ (Array.getElem?_eq_getElem hlt)
  rw [Array.getElem?_eq_none (Nat.le_refl _)] at hlast
  cases hlast

/-- No host loses closures, since it has no hold of the table. -/
theorem HostRun.keeps_growth (run : HostRun σ) (w : World σ) : run.Keeps (growth σ) w := by
  induction run generalizing w with
  | done answer state => exact fun _ _ h => h
  | invoke closure args state resume ih => exact ⟨fun _ _ h => h, fun answer w' _ => ih _ _ w'⟩

theorem Host.keeps_growth (host : Host σ) : host.Keeps (growth σ) where
  call _ _ w := HostRun.keeps_growth _ w
  force _ w := HostRun.keeps_growth _ w
  intercept _ _ w := HostRun.keeps_growth _ w
  hasMethod _ _ _ _ _ h := h
  callMethod _ _ _ w := HostRun.keeps_growth _ w
  property _ _ _ _ _ h := h

/-! ### Agreement -/

/-- Makes more than `n` closures. -/
def crowding (n : Nat) : Nat → Evaluator σ := fun _ _ _ _ => do
  modify fun w => { w with closures := w.closures ++ Array.replicate (n + 1) default }
  return .null

/-- From the world `w₀` on, two evaluations run alike, unless there are more than `n` closures
behind the first one. -/
structure Eval.Agrees (w₀ : World σ) (n : Nat) (m m' : Eval σ α) : Prop where
  keeps : m.Keeps (growth σ)
  alike : ∀ w, (growth σ).rel w₀ w → n < (m.runIn w).2.closures.size ∨ m.runIn w = m'.runIn w

/-- Two evaluators agree on every expression. -/
def Evaluator.Agrees (w₀ : World σ) (n : Nat) (below below' : Evaluator σ) : Prop :=
  ∀ env context e, (below env context e).Agrees w₀ n (below' env context e)

namespace Eval.Agrees

variable {w₀ : World σ} {n : Nat} {m m' : Eval σ α}

theorem refl (h : m.Keeps (growth σ)) : m.Agrees w₀ n m := ⟨h, fun _ _ => .inr rfl⟩

theorem pure (a : α) : (Pure.pure a : Eval σ α).Agrees w₀ n (Pure.pure a) := refl (.pure a)

theorem throw (e : EvalError) :
    (MonadExcept.throw e : Eval σ α).Agrees w₀ n (MonadExcept.throw e) := refl (.throw e)

theorem bind {f f' : α → Eval σ β} (hm : m.Agrees w₀ n m')
    (hf : ∀ a, (f a).Agrees w₀ n (f' a)) : (m >>= f).Agrees w₀ n (m' >>= f') := by
  refine ⟨hm.keeps.bind fun a => (hf a).keeps, fun w hw => ?_⟩
  have hbehind : (growth σ).rel w₀ (m.runIn w).2 := (growth σ).trans hw (hm.keeps w)
  have halike := hm.alike w hw
  rw [runIn_bind m, runIn_bind m']
  rcases hrun : m.runIn w with ⟨answer, w'⟩
  rw [hrun] at hbehind halike
  obtain hcrowd | halike := halike
  · -- The closures that are too many behind `m` are so behind all of it.
    left
    cases answer with
    | ok a => exact Nat.lt_of_lt_of_le hcrowd (size_le_of_growth ((hf a).keeps w'))
    | error e => exact hcrowd
  · rw [← halike]
    cases answer with
    | ok a => exact (hf a).alike w' hbehind
    | error e => exact .inr rfl

theorem mapM {f f' : α → Eval σ β} (hf : ∀ a, (f a).Agrees w₀ n (f' a)) (as : List α) :
    (as.mapM f).Agrees w₀ n (as.mapM f') := by
  induction as with
  | nil => exact .pure _
  | cons a as ih =>
    rw [List.mapM_cons, List.mapM_cons]
    exact (hf a).bind fun _ => ih.bind fun _ => .pure _

theorem anyM {f f' : α → Eval σ Bool} (hf : ∀ a, (f a).Agrees w₀ n (f' a)) (as : List α) :
    (as.anyM f).Agrees w₀ n (as.anyM f') := by
  induction as with
  | nil => exact .pure _
  | cons a as ih =>
    refine (hf a).bind fun b => ?_
    cases b with
    | true => exact .pure _
    | false => exact ih

theorem allM {f f' : α → Eval σ Bool} (hf : ∀ a, (f a).Agrees w₀ n (f' a)) (as : List α) :
    (as.allM f).Agrees w₀ n (as.allM f') := by
  induction as with
  | nil => exact .pure _
  | cons a as ih =>
    refine (hf a).bind fun b => ?_
    cases b with
    | true => exact ih
    | false => exact .pure _

theorem observing {m m' : Eval σ Value} (hm : m.Agrees w₀ n m') :
    (Eval.ofRun.observing m).Agrees w₀ n (Eval.ofRun.observing m') := by
  refine ⟨hm.keeps, fun w hw => (hm.alike w hw).imp_right fun h => ?_⟩
  exact congrArg (fun r : Except EvalError Value × World σ => (Except.ok r.1, r.2)) h

theorem ofRun {invoke invoke' : Nat → List Value → Eval σ Value}
    (h : ∀ closure args, (invoke closure args).Agrees w₀ n (invoke' closure args))
    (run : HostRun σ) : (Eval.ofRun invoke run).Agrees w₀ n (Eval.ofRun invoke' run) := by
  have hset : ∀ state, (modify fun w => { w with state := state } : Eval σ PUnit).Keeps
    (growth σ) := fun state w i c h => h
  induction run with
  | done answer state =>
    refine (refl (hset state)).bind fun _ => ?_
    cases answer with
    | ok v => exact .pure v
    | error e => exact .throw e
  | invoke closure args state resume ih =>
    refine (refl (hset state)).bind fun _ => ?_
    refine (h closure args).observing.bind fun answer => ?_
    exact (refl .get).bind fun w => ih answer w.state

/-- Something may follow the first evaluation that does nothing to the answers that come up. -/
theorem bind_pure {f : α → Eval σ α} (hm : m.Agrees w₀ n m') (hf : ∀ a, (f a).Keeps (growth σ))
    (hpure : ∀ w a, (growth σ).rel w₀ w → (m.runIn w).1 = .ok a →
      ¬ n < (m.runIn w).2.closures.size → f a = Pure.pure a) : (m >>= f).Agrees w₀ n m' := by
  refine ⟨hm.keeps.bind hf, fun w hw => ?_⟩
  have halike := hm.alike w hw
  have hanswer := hpure w
  rw [runIn_bind]
  rcases hrun : m.runIn w with ⟨e | a, w'⟩
  · rwa [hrun] at halike
  · rw [hrun] at halike hanswer
    by_cases hcrowd : n < w'.closures.size
    · exact .inl (Nat.lt_of_lt_of_le hcrowd (size_le_of_growth (hf a w')))
    · simp only [hanswer a hw rfl hcrowd]
      exact halike

end Eval.Agrees

/-! ### Levels -/

section

variable {host : Host σ} {w₀ : World σ} {n : Nat}

theorem callClosure_agrees {below below' : Evaluator σ} (hbelow : below.Agrees w₀ n below')
    (index : Nat) (args : List Value) :
    (callClosure below index args).Agrees w₀ n (callClosure below' index args) := by
  refine (Eval.Agrees.refl .get).bind fun w => ?_
  cases w.closures[index]? with
  | some c => exact hbelow _ _ _
  | none => exact .pure _

theorem request_agrees {below below' : Evaluator σ} (hbelow : below.Agrees w₀ n below')
    (run : σ → HostRun σ) : (request below run).Agrees w₀ n (request below' run) :=
  (Eval.Agrees.refl .get).bind fun w => .ofRun (callClosure_agrees hbelow) (run w.state)

/-- Evaluations agree if the levels below do. -/
theorem Composed.agrees {m : Evaluator σ → Eval σ α} (h : Composed host m)
    {below below' : Evaluator σ} (hbelow : below.Agrees w₀ n below') :
    (m below).Agrees w₀ n (m below') := by
  induction h with
  | pure a => exact .pure a
  | throw e => exact .throw e
  | bind hm hf ihm ihf => exact ihm.bind ihf
  | eval env context e => exact hbelow env context e
  | callClosure index args => exact callClosure_agrees hbelow index args
  | request hrun => exact request_agrees hbelow _
  | hasMethod object name => exact .refl (host.keeps_growth.hasMethod object name)
  | property object name => exact .refl (host.keeps_growth.property object name)
  | newClosure c => exact .refl (.newClosure c)

/-- Behind an evaluator that makes too many closures nothing has to be alike. -/
theorem crowding_agrees (depth : Nat) (below : Evaluator σ) :
    Evaluator.Agrees w₀ n (crowding n depth) below := by
  intro env context e
  refine ⟨fun w i c h => ?_, fun w _ => .inl ?_⟩
  · change (w.closures ++ Array.replicate (n + 1) default)[i]? = some c
    have hi : i < w.closures.size := (Array.getElem?_eq_some_iff.1 h).1
    rw [Array.getElem?_append_left hi, h]
  · change n < (w.closures ++ Array.replicate (n + 1) default).size
    rw [Array.size_append, Array.size_replicate]
    exact Nat.lt_of_lt_of_le (Nat.lt_succ_self n) (Nat.le_add_left _ _)

/-- A level agrees with whatever a step on top of the next level agrees with: at the limit nothing
has to be alike. -/
theorem evalOr_agrees_of_step {levels depth : Nat} {env : Environment} {context : Context}
    {e : Expr} {m' : Eval σ Value}
    (h : ∀ rest, levels = rest + 1 →
      (step host (evalOr host (crowding n) rest (depth + 1)) env context e).Agrees w₀ n m') :
    (evalOr host (crowding n) levels depth env context e).Agrees w₀ n m' := by
  cases levels with
  | zero => exact crowding_agrees depth (fun _ _ _ => m') env context e
  | succ rest =>
    simp only [evalOr]
    split
    · exact crowding_agrees depth (fun _ _ _ => m') env context e
    · exact h rest rfl

/-- With too many closures at the limit, a level agrees with steps that know no limit, if there are
enough of them. -/
theorem evalOr_agrees_above (host : Host σ) (below : Evaluator σ) {levels steps : Nat}
    (h : levels ≤ steps) (depth : Nat) :
    Evaluator.Agrees w₀ n (evalOr host (crowding n) levels depth) (above host below steps) := by
  induction levels generalizing steps depth with
  | zero => exact crowding_agrees depth _
  | succ levels ih =>
    intro env context e
    obtain ⟨steps, rfl⟩ := Nat.exists_eq_add_one.2 (Nat.lt_of_lt_of_le levels.succ_pos h)
    refine evalOr_agrees_of_step fun rest hrest => ?_
    obtain rfl := Nat.succ.inj hrest
    exact (composed_step env context e).agrees (ih (Nat.le_of_succ_le_succ h) (depth + 1))

/-- With too many closures at the limit, a level agrees with itself without them. -/
theorem evalOr_agrees_evalAt (host : Host σ) (levels depth : Nat) :
    Evaluator.Agrees w₀ n (evalOr host (crowding n) levels depth) (evalAt host levels depth) := by
  induction levels generalizing depth with
  | zero => exact crowding_agrees depth _
  | succ levels ih =>
    intro env context e
    rcases Nat.lt_or_ge depth env.options.maxDepth with hlt | hge
    · rw [evalAt_of_lt hlt]
      refine evalOr_agrees_of_step fun rest hrest => ?_
      obtain rfl := Nat.succ.inj hrest
      exact (composed_step env context e).agrees (ih (depth + 1))
    · simp only [evalOr, if_pos hge]
      exact crowding_agrees depth _ env context e

theorem evalOr_keeps (host : Host σ) (n levels depth : Nat) :
    Evaluator.Keeps (growth σ) (evalOr host (crowding n) levels depth) := by
  intro env context e w
  have hagrees : Eval.Agrees w n (evalOr host (crowding n) levels depth env context e)
    (evalAt host levels depth env context e) := evalOr_agrees_evalAt host levels depth env context e
  exact hagrees.keeps w

/-- What stays below the limit runs as an evaluation that it agrees with for every number of
closures. -/
theorem StaysBelow.runIn_eq {levels depth : Nat} {run : Evaluator σ → Eval σ α} {w : World σ}
    (h : StaysBelow host levels depth run w) {m' : Eval σ α}
    (hagrees : ∀ n, (run (evalOr host (crowding n) levels depth)).Agrees w n m') :
    (run (evalAt host levels depth)).runIn w = m'.runIn w := by
  have halike := (hagrees ((run (evalAt host levels depth)).runIn w).2.closures.size).alike w
    ((growth σ).refl w)
  rw [h] at halike
  exact halike.resolve_left (Nat.lt_irrefl _)

end

end PathQuery
