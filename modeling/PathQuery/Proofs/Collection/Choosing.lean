/-
Choosing elements: filters and searches.

* **`runIn_filter_eq_ok_iff`, `runIn_filter_eq_error_iff`** — a filter makes the selections of all
  elements, as far as they can be made;
* **`runIn_any`, `runIn_all`** — the other two methods search, for a truthy selection or for one
  that is not;
* **`searches_of_ok`, `searches_of_error`** — what the searches answer beside a filter, and the
  worlds they end in;
* **`filter_any_all_agree`** — what all three have to do with each other.

Design notes: a search ends in a world that the filter goes through.  That it asks the host for a
part of what the filter asks for is so because the log only grows.
-/
import PathQuery.Proofs.Collection.Selectors
import PathQuery.Proofs.Evaluation.Sequences
import PathQuery.Proofs.Host.Journal

namespace PathQuery

variable {σ : Type}

/-- Whether a value can be applied to elements: a function is called, a text names a member. -/
def Value.isSelector : Value → Bool
  | .function _ => true
  | .string _ => true
  | _ => false

/-- The error that a selection has in another method.  Only the refusal of what is no selector
names the method. -/
def selectionError (method : String) (p : Value) (e : EvalError) : EvalError :=
  if p.isSelector then e else .typeFault (.notASelector method p.kind)

/-- The elements with truthy selections. -/
def chosen (items selections : List Value) : List Value :=
  ((items.zip selections).filter (·.2.isTruthy)).map (·.1)

/-! ### Chosen elements -/

section Chosen

variable {items selections : List Value} (h : selections.length = items.length)
include h

theorem chosen_sublist : (chosen items selections).Sublist items := by
  have hsublist : (chosen items selections).Sublist ((items.zip selections).map (·.1)) :=
    List.filter_sublist.map _
  rwa [List.map_fst_zip (Nat.le_of_eq h.symm)] at hsublist

theorem chosen_eq_nil_iff : chosen items selections = [] ↔ selections.any (·.isTruthy) = false := by
  have hselections : (items.zip selections).map (·.2) = selections :=
    List.map_snd_zip (Nat.le_of_eq h)
  conv => rhs; rw [← hselections, List.any_map, List.any_eq_false]
  rw [chosen, List.map_eq_nil_iff, List.filter_eq_nil_iff]
  rfl

theorem length_chosen_eq_iff :
    (chosen items selections).length = items.length ↔ selections.all (·.isTruthy) = true := by
  have hselections : (items.zip selections).map (·.2) = selections :=
    List.map_snd_zip (Nat.le_of_eq h)
  have hlength : (items.zip selections).length = items.length := by
    rw [List.length_zip, h, Nat.min_self]
  conv => rhs; rw [← hselections, List.all_map, List.all_eq_true]
  rw [chosen, List.length_map, ← hlength, List.length_filter_eq_length_iff]
  rfl

end Chosen

section

variable {host : Host σ} {env : Environment} {below : Evaluator σ} {items : List Value}
  {p item v : Value} {vs : List Value} {e : EvalError} {w w' : World σ}

/-! ### Selections in different methods -/

theorem select_of_isSelector (hp : p.isSelector = true) (method method' : String) (item : Value) :
    select host below env method p item = select host below env method' p item := by
  cases p with
  | function f => rfl
  | string member => rfl
  | _ => cases hp

theorem select_of_not_isSelector (hp : p.isSelector = false) (method : String) (item : Value) :
    select host below env method p item = throw (.typeFault (.notASelector method p.kind)) := by
  cases p with
  | function f => cases hp
  | string member => cases hp
  | _ => rfl

theorem runIn_select_of_ok {method : String}
    (h : (select host below env method p item).runIn w = (.ok v, w')) (method' : String) :
    (select host below env method' p item).runIn w = (.ok v, w') := by
  cases hp : p.isSelector with
  | true => rwa [select_of_isSelector hp method' method]
  | false =>
    rw [select_of_not_isSelector hp] at h
    cases h

theorem runIn_select_of_error {method : String}
    (h : (select host below env method p item).runIn w = (.error e, w')) (method' : String) :
    (select host below env method' p item).runIn w = (.error (selectionError method' p e), w') := by
  cases hp : p.isSelector with
  | true => rwa [selectionError, if_pos hp, select_of_isSelector hp method' method]
  | false =>
    rw [select_of_not_isSelector hp] at h ⊢
    cases h
    rw [selectionError, hp]
    rfl

theorem runIn_mapM_select_of_ok {method : String}
    (h : (items.mapM (select host below env method p)).runIn w = (.ok vs, w')) (method' : String) :
    (items.mapM (select host below env method' p)).runIn w = (.ok vs, w') := by
  induction items generalizing w vs with
  | nil => exact h
  | cons item items ih =>
    obtain ⟨v, rest, w₁, rfl, hfirst, hrest⟩ := Eval.runIn_mapM_cons_eq_ok_iff.1 h
    exact Eval.runIn_mapM_cons_eq_ok_iff.2
      ⟨v, rest, w₁, rfl, runIn_select_of_ok hfirst method', ih hrest⟩

/-! ### The methods -/

theorem selecting_filter : selecting host env items "filter" p below =
    items.mapM (select host below env "filter" p) >>= fun vs =>
      return .array (chosen items vs) := rfl

theorem runIn_filter_eq_ok_iff :
    (selecting host env items "filter" p below).runIn w = (.ok v, w') ↔
      ∃ vs, (items.mapM (select host below env "filter" p)).runIn w = (.ok vs, w') ∧
        v = .array (chosen items vs) := by
  rw [selecting_filter, Eval.runIn_bind_eq_ok_iff]
  constructor
  · rintro ⟨vs, w₁, hrun, hlast⟩
    cases hlast
    exact ⟨vs, hrun, rfl⟩
  · rintro ⟨vs, hrun, rfl⟩
    exact ⟨vs, w', hrun, rfl⟩

theorem runIn_filter_eq_error_iff :
    (selecting host env items "filter" p below).runIn w = (.error e, w') ↔
      ∃ before item after vs w₁, items = before ++ item :: after ∧
        (before.mapM (select host below env "filter" p)).runIn w = (.ok vs, w₁) ∧
        (select host below env "filter" p item).runIn w₁ = (.error e, w') := by
  rw [selecting_filter, Eval.runIn_bind_eq_error_iff, ← Eval.runIn_mapM_eq_error_iff, or_iff_left]
  rintro ⟨vs, w₁, -, hlast⟩
  cases hlast

variable {r : Except EvalError Bool}

/-- Whether a selection is truthy is found by a search. -/
theorem runIn_any (h : (items.anyM fun item => do
      return (← select host below env "any" p item).isTruthy).runIn w = (r, w')) :
    (selecting host env items "any" p below).runIn w = (r.map .boolean, w') := by
  have hany : selecting host env items "any" p below = (items.anyM fun item => do
      return (← select host below env "any" p item).isTruthy) >>= fun b => return .boolean b := rfl
  rw [hany, Eval.runIn_bind_pure, h]

/-- Whether all selections are truthy is found by a search for one that is not. -/
theorem runIn_all (h : (items.anyM fun item => do
      return !(← select host below env "all" p item).isTruthy).runIn w = (r, w')) :
    (selecting host env items "all" p below).runIn w = (r.map (.boolean !·), w') := by
  have hall : selecting host env items "all" p below = (items.allM fun item => do
      return (← select host below env "all" p item).isTruthy) >>= fun b => return .boolean b := rfl
  rw [hall, List.allM_eq_not_anyM_not]
  simp only [map_eq_pure_bind, bind_assoc, pure_bind]
  rw [Eval.runIn_bind_pure, h]

/-! ### Searches beside a filter -/

variable {R : WorldOrder σ} (hhost : host.Keeps R) (hbelow : below.Keeps R)
include hhost hbelow

theorem select_keeps (method : String) (item : Value) :
    (select host below env method p item).Keeps R :=
  (composed_select env method p item).keeps hhost hbelow

/-- Where all selections can be made, the searches answer as they tell. -/
theorem searches_of_ok
    (hrun : (items.mapM (select host below env "filter" p)).runIn w = (.ok vs, w')) :
    ∃ w₁ w₂,
      (selecting host env items "any" p below).runIn w =
        (.ok (.boolean !(chosen items vs).isEmpty), w₁) ∧
      (selecting host env items "all" p below).runIn w =
        (.ok (.boolean ((chosen items vs).length == items.length)), w₂) ∧
      R.rel w₁ w' ∧ R.rel w₂ w' := by
  have hlength : vs.length = items.length := Eval.length_eq_of_mapM hrun
  obtain ⟨w₁, hany, hrel₁⟩ := Eval.runIn_anyM_of_ok (p := (·.isTruthy))
    (select_keeps hhost hbelow "any") (runIn_mapM_select_of_ok hrun "any")
  obtain ⟨w₂, hall, hrel₂⟩ := Eval.runIn_anyM_of_ok (p := (!·.isTruthy))
    (select_keeps hhost hbelow "all") (runIn_mapM_select_of_ok hrun "all")
  have hsome : vs.any (·.isTruthy) = !(chosen items vs).isEmpty := by
    rw [Bool.eq_iff_iff, Bool.not_eq_true', ← Bool.not_eq_false, ← chosen_eq_nil_iff hlength]
    simp
  have hevery : (!vs.any (!·.isTruthy)) = ((chosen items vs).length == items.length) := by
    rw [← List.all_eq_not_any_not, Bool.eq_iff_iff, ← length_chosen_eq_iff hlength, beq_iff_eq]
  refine ⟨w₁, w₂, ?_, ?_, hrel₁, hrel₂⟩
  · rw [runIn_any hany, hsome]
    rfl
  · rw [runIn_all hall, ← hevery]
    rfl

/-- Where the selection of an element cannot be made, a search fails as well, unless it has found
what it is for among the elements before. -/
theorem searches_of_error {before : List Value} {w₀ : World σ}
    (hbefore : (before.mapM (select host below env "filter" p)).runIn w = (.ok vs, w₀))
    (hfails : (select host below env "filter" p item).runIn w₀ = (.error e, w'))
    (after : List Value) :
    ∃ w₁ w₂,
      (selecting host env (before ++ item :: after) "any" p below).runIn w =
        (if vs.any (·.isTruthy) then .ok (.boolean true)
          else .error (selectionError "any" p e), w₁) ∧
      (selecting host env (before ++ item :: after) "all" p below).runIn w =
        (if vs.all (·.isTruthy) then .error (selectionError "all" p e)
          else .ok (.boolean false), w₂) ∧
      R.rel w₁ w' ∧ R.rel w₂ w' := by
  obtain ⟨w₁, hany, hrel₁⟩ := Eval.runIn_anyM_of_error (p := (·.isTruthy))
    (select_keeps hhost hbelow "any") (runIn_mapM_select_of_ok hbefore "any")
    (runIn_select_of_error hfails "any") after
  obtain ⟨w₂, hall, hrel₂⟩ := Eval.runIn_anyM_of_error (p := (!·.isTruthy))
    (select_keeps hhost hbelow "all") (runIn_mapM_select_of_ok hbefore "all")
    (runIn_select_of_error hfails "all") after
  refine ⟨w₁, w₂, ?_, ?_, hrel₁, hrel₂⟩
  · rw [runIn_any hany]
    cases vs.any (·.isTruthy) <;> rfl
  · rw [runIn_all hall, List.all_eq_not_any_not]
    cases vs.any (!·.isTruthy) <;> rfl

/-- Either way they end in worlds that the filter goes through. -/
theorem searches_rel :
    R.rel ((selecting host env items "any" p below).runIn w).2
        ((selecting host env items "filter" p below).runIn w).2 ∧
      R.rel ((selecting host env items "all" p below).runIn w).2
        ((selecting host env items "filter" p below).runIn w).2 := by
  obtain ⟨answer, w', hfilter⟩ : ∃ answer w',
    (selecting host env items "filter" p below).runIn w = (answer, w') := ⟨_, _, rfl⟩
  cases answer with
  | ok v =>
    obtain ⟨vs, hrun, -⟩ := runIn_filter_eq_ok_iff.1 hfilter
    obtain ⟨w₁, w₂, hany, hall, hrel⟩ := searches_of_ok hhost hbelow hrun
    rwa [hfilter, hany, hall]
  | error e =>
    obtain ⟨before, item, after, vs, w₀, rfl, hbefore, hfails⟩ :=
      runIn_filter_eq_error_iff.1 hfilter
    obtain ⟨w₁, w₂, hany, hall, hrel⟩ := searches_of_error hhost hbelow hbefore hfails after
    rwa [hfilter, hany, hall]

end

/-! ### Filters and searches -/

/-- A filter keeps the elements with truthy selections, in their order; beside it, one search tells
whether it keeps any and the other one whether it keeps all.  Where the filter fails at an element, a
search has found what it is for before, or fails there with the same error, save that each method
refuses in its own name what is no selector.  The searches ask the host, interceptors included, a
part from the start of what the filter asks. -/
theorem filter_any_all_agree (host : Host σ) (env : Environment) (items : List Value) (p : Value)
    (levels depth : Nat) (w : World σ) :
    let run method := (selecting host env items method p (evalAt host levels depth)).runIn w
    let pick := select host (evalAt host levels depth) env "filter" p
    (∀ v w', run "filter" = (.ok v, w') → ∃ vs kept, (items.mapM pick).runIn w = (.ok vs, w') ∧
      kept = chosen items vs ∧ v = .array kept ∧ kept.Sublist items ∧
      (run "any").1 = .ok (.boolean !kept.isEmpty) ∧
      (run "all").1 = .ok (.boolean (kept.length == items.length))) ∧
    (∀ e w', run "filter" = (.error e, w') → ∃ before item after vs w₀,
      items = before ++ item :: after ∧ (before.mapM pick).runIn w = (.ok vs, w₀) ∧
      (pick item).runIn w₀ = (.error e, w') ∧
      (run "any").1 = (if vs.any (·.isTruthy) then .ok (.boolean true)
        else .error (selectionError "any" p e)) ∧
      (run "all").1 = if vs.all (·.isTruthy) then .error (selectionError "all" p e)
        else .ok (.boolean false)) ∧
    ∀ log : List HostCall,
      let calls method := ((selecting host.logged env items method p
        (evalAt host.logged levels depth)).runIn (w.beside log)).2.log
      calls "any" <+: calls "filter" ∧ calls "all" <+: calls "filter" := by
  intro run pick
  have hkeeps := evalAt_keeps host.keeps_growth levels depth
  refine ⟨fun v w' h => ?ok, fun e w' h => ?error, fun log =>
    searches_rel host.keeps_logged (evalAt_keeps host.keeps_logged levels depth)⟩
  case ok =>
    obtain ⟨vs, hrun, hv⟩ := runIn_filter_eq_ok_iff.1 h
    obtain ⟨w₁, w₂, hany, hall, -⟩ := searches_of_ok host.keeps_growth hkeeps hrun
    exact ⟨vs, _, hrun, rfl, hv, chosen_sublist (Eval.length_eq_of_mapM hrun),
      congrArg Prod.fst hany, congrArg Prod.fst hall⟩
  case error =>
    obtain ⟨before, item, after, vs, w₀, rfl, hbefore, hfails⟩ := runIn_filter_eq_error_iff.1 h
    obtain ⟨w₁, w₂, hany, hall, -⟩ :=
      searches_of_error host.keeps_growth hkeeps hbefore hfails after
    exact ⟨before, item, after, vs, w₀, rfl, hbefore, hfails, congrArg Prod.fst hany,
      congrArg Prod.fst hall⟩

/-- Members of two objects; with a null between them, one search fails and the other one ends
before. -/
theorem filter_any_all_agree_member :
    let host := Host.constant .null
    let env : Environment := ⟨.empty, none, ⟨128, false⟩⟩
    let zero : Value := .object [("n", .integer 0)]
    let one : Value := .object [("n", .integer 1)]
    let run items method :=
      ((selecting host env items method (.string "n") (evalAt host 2 0)).runIn ⟨(), #[]⟩).1
    run [zero, one] "filter" = .ok (.array [one]) ∧
      run [zero, one] "any" = .ok (.boolean true) ∧
      run [zero, one] "all" = .ok (.boolean false) ∧
      run [zero, .null, one] "any" = .error (.invalidMemberTarget "n" "null") ∧
      run [zero, .null, one] "all" = .ok (.boolean false) := by
  intro host env zero one run
  obtain ⟨hok, -, -⟩ := filter_any_all_agree host env [zero, one] (.string "n") 2 0 ⟨(), #[]⟩
  obtain ⟨-, herror, -⟩ :=
    filter_any_all_agree host env [zero, .null, one] (.string "n") 2 0 ⟨(), #[]⟩
  obtain ⟨vs, kept, hrun, rfl, -, -, hany, hall⟩ := hok _ _ rfl
  cases hrun
  obtain ⟨before, item, after, vs, w₀, hitems, hbefore, hfails, hany', hall'⟩ := herror _ _ rfl
  refine ⟨rfl, hany, hall, ?_⟩
  -- Of the places where the filter could have failed, only the null is one.
  rcases before with _ | ⟨first, _ | ⟨second, rest⟩⟩
  · obtain ⟨rfl, -⟩ := List.cons.inj hitems
    cases hfails
  · obtain ⟨rfl, hrest⟩ := List.cons.inj hitems
    cases hrest
    cases hfails
    cases hbefore
    exact ⟨hany', hall'⟩
  · obtain ⟨rfl, hrest⟩ := List.cons.inj hitems
    obtain ⟨rfl, -⟩ := List.cons.inj hrest
    cases hbefore

/-- A number is no selector, and the methods refuse it each in its own name. -/
theorem filter_any_refuse_apart :
    let host := Host.constant .null
    let env : Environment := ⟨.empty, none, ⟨128, false⟩⟩
    let run method :=
      ((selecting host env [.integer 1] method (.integer 5) (evalAt host 2 0)).runIn ⟨(), #[]⟩).1
    run "filter" = .error (.typeFault (.notASelector "filter" "integer")) ∧
      run "any" = .error (.typeFault (.notASelector "any" "integer")) ∧
      run "any" ≠ run "filter" := by
  intro host env run
  have hfilter : run "filter" = .error (.typeFault (.notASelector "filter" "integer")) := rfl
  have hany : run "any" = .error (.typeFault (.notASelector "any" "integer")) := rfl
  refine ⟨hfilter, hany, ?_⟩
  rw [hfilter, hany]
  simp

end PathQuery
