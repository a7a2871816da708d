/-
Member names and closures as selectors.

* **`memberReader`** — the closure that reads a member of its argument;
* **`callClosure_agrees_readMember`** — calling it and reading the member run alike until the limit
  of depth;
* **`selecting_agrees`** — a method of an array runs alike if its selections do;
* **`selecting_memberName_eq_reader`** — a member name in the place of that closure makes no
  difference.

Design notes: the closure computes a lazy element when its parameter is looked up, two levels deeper
than the member name does, and once more as the object of the member access.
-/
import PathQuery.Proofs.Evaluation.Deferred
import PathQuery.Proofs.Evaluation.UntilLimit
import PathQuery.Proofs.Fields
import PathQuery.Proofs.Host.Log

namespace PathQuery

variable {σ : Type}

/-! ### Selectors -/

/-- The methods of arrays that apply a selector of any kind. -/
def Collection.selectingMethods : List String :=
  ["filter", "map", "any", "all", "sum", "avg", "sort"]

/-- Calls a method of an array with a selector. -/
def selecting (host : Host σ) (env : Environment) (items : List Value) (method : String)
    (selector : Value) (below : Evaluator σ) : Eval σ Value :=
  access host below (select host below env) (.array items) method (some [selector])

/-- The closure that reads a member of its argument. -/
def memberReader (param member : String) (captured : Context) (env : Environment) : Closure :=
  ⟨[param], .member (.variable param) member false, captured, env⟩

/-- From the world `w` on, computing a value never gives a lazy one. -/
def ForcesFully (host : Host σ) (w : World σ) : Prop :=
  ∀ levels depth v w' lazy, (growth σ).rel w w' →
    ¬ (force host (evalAt host levels depth) v).Gives w' lazy

/-- So it is if the host never answers a lazy value with one, whatever closures answer meanwhile. -/
theorem forcesFully_of_not_mayAnswer {host : Host σ}
    (h : ∀ entry s lazy, ¬ (host.force entry s).MayAnswer (.ok (.deferred lazy))) (w : World σ) :
    ForcesFully host w := by
  intro levels depth v w' lazy _ hgives
  cases v with
  | deferred entry => exact not_answers (fun s => h entry s lazy) ⟨rfl, hgives⟩
  | _ => cases hgives

section

variable {host : Host σ} {env : Environment} {captured : Context} {param member : String}
  {w₀ : World σ} {n : Nat}

/-! ### Reading a member -/

/-- Without arguments no method applies a selector. -/
theorem access_none_eq {below : Evaluator σ} (select select' : Collection.Select σ)
    (target : Value) (member : String) :
    access host below select target member none = access host below select' target member none := by
  cases target with
  | array items =>
    rw [access, access]
    split
    · rfl
    · unfold Collection.arrayMethod?
      split <;> rfl
  | _ => rfl

theorem get?_scope_memberReader (item : Value) :
    ((memberReader param member captured env).scope [item]).get? param = some item := by
  change (Context.mk [(param, item)] _).get? param = some item
  rw [Context.get?, Context.layers, List.findSome?_cons, List.lookup_cons_self]

/-- The parameter of the closure has the value of the element, computed if that is lazy. -/
theorem variable_agrees_force {context : Context} {item : Value}
    (hitem : context.get? param = some item) {levels depth : Nat} {below : Evaluator σ}
    (hbelow : ∀ rest, levels = rest + 1 →
      Evaluator.Agrees w₀ n (evalOr host (crowding n) rest (depth + 1)) below) :
    (evalOr host (crowding n) levels depth env context (.variable param)).Agrees w₀ n
      (force host below item) := by
  refine evalOr_agrees_of_step fun rest hrest => ?_
  have hstep : step host (evalOr host (crowding n) rest (depth + 1)) env context (.variable param) =
      force host (evalOr host (crowding n) rest (depth + 1)) item := by
    simp only [step, resolve, hitem, bind_assoc, pure_bind, bind_pure]
  rw [hstep]
  exact (composed_force item).agrees (hbelow rest hrest)

theorem memberObject_agrees_force (hforce : ForcesFully host w₀) {context : Context} {item : Value}
    (hitem : context.get? param = some item) {below : Evaluator σ} {levels depth steps : Nat}
    (hsteps : levels ≤ steps) :
    (memberObject host (evalOr host (crowding n) levels depth) env context (.variable param)).Agrees
      w₀ n (force host (above host below steps) item) := by
  have hrun : (evalOr host (crowding n) levels depth env context (.variable param)).Agrees w₀ n
      (force host (above host below steps) item) :=
    variable_agrees_force hitem fun rest hrest => evalOr_agrees_above host below (by omega) _
  have hlevel : (evalOr host (crowding n) levels depth env context (.variable param)).Agrees w₀ n
      (force host (evalAt host (levels - 1) (depth + 1)) item) :=
    variable_agrees_force hitem fun rest hrest => by
      subst hrest
      exact evalOr_agrees_evalAt host rest (depth + 1)
  have hkeeps : ∀ v, (force host (evalOr host (crowding n) levels depth) v).Keeps (growth σ) :=
    fun v => (composed_force v).keeps host.keeps_growth (evalOr_keeps host n levels depth)
  -- The value of the variable is computed already, so nothing is computed again.
  refine hrun.bind_pure hkeeps fun w v hw hv hroom => ?_
  have hanswer := (hlevel.alike w hw).resolve_left hroom
  cases v with
  | deferred lazy =>
    exact absurd (Eval.gives_iff.2 (hanswer ▸ hv)) (hforce (levels - 1) (depth + 1) item w lazy hw)
  | _ => rfl

/-- Calling the closure is reading the member. -/
theorem callClosure_agrees_readMember (hforce : ForcesFully host w₀) {index : Nat}
    (hreader : w₀.closures[index]? = some (memberReader param member captured env)) (item : Value)
    (below : Evaluator σ) {levels depth steps : Nat} (hsteps : levels ≤ steps) :
    (callClosure (evalOr host (crowding n) levels depth) index [item]).Agrees w₀ n
      (readMember host (above host below steps) env item member) := by
  have hbody : (evalOr host (crowding n) levels depth env
      ((memberReader param member captured env).scope [item])
      (.member (.variable param) member false)).Agrees w₀ n
        (readMember host (above host below steps) env item member) := by
    refine evalOr_agrees_of_step fun rest hlevels => ?_
    have hrest : Evaluator.Agrees w₀ n (evalOr host (crowding n) rest (depth + 1))
      (above host below steps) := evalOr_agrees_above host below (by omega) _
    refine (memberObject_agrees_force hforce (get?_scope_memberReader item) (by omega)).bind
      fun target => ?_
    refine ((composed_intercept env target).agrees hrest).bind fun target => ?_
    rw [access_none_eq _ noSelection]
    exact (composed_access (fun _ _ _ => .pure _) target member none).agrees hrest
  refine ⟨callClosure_keeps (evalOr_keeps host n levels depth) index [item], fun w hw => ?_⟩
  have hcall : (callClosure (evalOr host (crowding n) levels depth) index [item]).runIn w =
      (evalOr host (crowding n) levels depth env
        ((memberReader param member captured env).scope [item])
        (.member (.variable param) member false)).runIn w := by
    rw [callClosure, Eval.runIn_bind_of_ok (Eval.runIn_get w), hw _ _ hreader]
    rfl
  rw [hcall]
  exact hbody.alike w hw

/-! ### Methods -/

theorem numbers_agrees {select select' : Collection.Select σ} {method : String}
    {selector selector' : Value}
    (h : ∀ item, (select method selector item).Agrees w₀ n (select' method selector' item))
    (items : List Value) :
    (Collection.numbers select method items [selector]).Agrees w₀ n
      (Collection.numbers select' method items [selector']) := by
  refine .mapM (fun item => (h item).bind fun v => ?_) items
  cases v.toNumber? with
  | some number => exact .pure _
  | none => exact .throw _

/-- A method runs alike if its selections do. -/
theorem selecting_agrees {method : String} (hmethod : method ∈ Collection.selectingMethods)
    {selector : Value} {below : Evaluator σ} {pick : Value → Eval σ Value}
    (hselect : ∀ item, (select host below env method selector item).Agrees w₀ n (pick item))
    (items : List Value) :
    (selecting host env items method selector below).Agrees w₀ n
      ((Collection.arrayMethod? (fun _ _ => pick) method items [.null]).getD (return .null)) := by
  have hflag := fun item => (hselect item).bind fun v => Eval.Agrees.pure (n := n) v.isTruthy
  simp only [Collection.selectingMethods, List.mem_cons, List.not_mem_nil, or_false] at hmethod
  rcases hmethod with rfl | rfl | rfl | rfl | rfl | rfl | rfl
  · exact (Eval.Agrees.mapM hselect items).bind fun _ => .pure _
  · exact (Eval.Agrees.mapM hselect items).bind fun _ => .pure _
  · exact (Eval.Agrees.anyM hflag items).bind fun _ => .pure _
  · exact (Eval.Agrees.allM hflag items).bind fun _ => .pure _
  · exact (numbers_agrees hselect items).bind fun _ => .pure _
  · refine (numbers_agrees hselect items).bind fun ns => ?_
    cases Collection.mean ns with
    | some x => exact .pure _
    | none => exact .pure _
  · refine (Eval.Agrees.mapM hselect items).bind fun keys => ?_
    cases Collection.sortByKey (items.zip keys) with
    | some entries => exact .pure _
    | none => exact .throw _

/-- With a member name, or with the closure that reads the member, a method has the same answer and
leaves the same world, below the limit of depth.  So the host is asked the same in the same order,
since it may keep a log of that in its state.  `pluck` with a member name is `map` with it. -/
theorem selecting_memberName_eq_reader {method : String}
    (hmethod : method ∈ Collection.selectingMethods) (items : List Value) {levels depth index : Nat}
    {w : World σ} (hforce : ForcesFully host w)
    (hreader : w.closures[index]? = some (memberReader param member captured env))
    (hname : StaysBelow host levels depth (selecting host env items method (.string member)) w)
    (hclosure : StaysBelow host levels depth
      (selecting host env items method (.function (.closure index))) w) :
    let run method selector :=
      (selecting host env items method selector (evalAt host levels depth)).runIn w
    run method (.string member) = run method (.function (.closure index)) ∧
      run "pluck" (.string member) = run "map" (.string member) ∧
      (method = "map" → run "pluck" (.string member) = run "map" (.function (.closure index))) := by
  intro run
  let steps : Evaluator σ := above host (fun _ _ _ => return .null) levels
  let reading := Collection.arrayMethod? (fun _ _ item => readMember host steps env item member)
    method items [.null]
  have hmember : run method (.string member) = (reading.getD (return .null)).runIn w :=
    hname.runIn_eq fun n => selecting_agrees hmethod (fun item =>
      (composed_readMember env item member).agrees
        (evalOr_agrees_above host _ (Nat.le_refl levels) depth)) items
  have hcall : run method (.function (.closure index)) = (reading.getD (return .null)).runIn w :=
    hclosure.runIn_eq fun n => selecting_agrees hmethod (fun item =>
      callClosure_agrees_readMember hforce hreader item _ (Nat.le_refl levels)) items
  have hpluck : run "pluck" (.string member) = run "map" (.string member) := rfl
  refine ⟨hmember.trans hcall.symm, hpluck, fun h => ?_⟩
  subst h
  exact hpluck.trans (hmember.trans hcall.symm)

/-- The sum of the numbers of two objects, the first of which is lazy. -/
theorem selecting_memberName_eq_reader_sum :
    let env : Environment := ⟨.empty, some 0, ⟨128, false⟩⟩
    let host := (Host.constant (.object [("n", .integer 3)])).logged
    let items := [.deferred ⟨7⟩, .object [("n", .integer 4)]]
    let log : List HostCall := [.force ⟨7⟩, .intercept 0 (.object [("n", .integer 3)]),
      .intercept 0 (.object [("n", .integer 4)])]
    let closures := #[memberReader "x" "n" .empty env]
    let run selector := (selecting host env items "sum" selector (evalAt host 2 0)).runIn
      ⟨((), []), closures⟩
    run (.string "n") = (.ok (.integer 7), ⟨((), log), closures⟩) ∧
      run (.string "n") = run (.function (.closure 0)) := by
  intro env host items log closures run
  have hforce : ForcesFully host ⟨((), []), closures⟩ :=
    forcesFully_of_not_mayAnswer (fun entry s lazy h => by cases h) _
  have hname : StaysBelow host 2 0 (selecting host env items "sum" (.string "n"))
      ⟨((), []), closures⟩ :=
    staysBelow_of_forall_eq (r := (.ok (.integer 7), ⟨((), log), closures⟩)) fun _ => rfl
  have hclosure : StaysBelow host 2 0 (selecting host env items "sum" (.function (.closure 0)))
      ⟨((), []), closures⟩ :=
    staysBelow_of_forall_eq (r := (.ok (.integer 7), ⟨((), log), closures⟩)) fun _ => rfl
  have hmethod : "sum" ∈ Collection.selectingMethods := by simp [Collection.selectingMethods]
  exact ⟨rfl, (selecting_memberName_eq_reader hmethod items hforce rfl hname hclosure).1⟩

end

end PathQuery
