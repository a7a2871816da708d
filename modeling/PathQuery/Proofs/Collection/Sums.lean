/-
Sums.

The selections of the elements are taken for numbers one by one, and the first one that is none ends
the traversal.  The numbers are added as integers while they are integers and every total on the way
fits 64 bits.  From there on the total is a float, and stays one:

* **`Collection.runIn_numbers_eq_ok_iff`, `Collection.runIn_numbers_eq_error_iff`** — the numbers, or
  why there are none;
* **`Collection.foldl_addToTotal_eq_integer_iff`** — when a total is an integer, and which one;
* **`Collection.foldlM_add_of_foldl_addToTotal`** — it is what the operator `+` gives, element by
  element;
* **`Collection.isSum_sum`** — the method, with a selector or without one.

Design notes: from a float on, totals and the operator `+` part ways, since the operator adds a float
and an integer as decimals.
-/
import Mathlib.Algebra.Ring.Int.Defs
import PathQuery.Proofs.Arithmetic.Integers
import PathQuery.Proofs.Evaluation.Sequences

namespace PathQuery.Collection

variable {σ : Type}

/-! ### Numbers -/

section Numbers

variable {select : Select σ} {method : String} {args items : List Value} {vs : List Value}
  {ns : List Number} {w w' : World σ} {e : EvalError}

/-- The selections of all elements, made one after the other, stand for numbers. -/
structure SelectsNumbers (select : Select σ) (method : String) (args items : List Value)
    (w : World σ) (vs : List Value) (ns : List Number) (w' : World σ) : Prop where
  run : (items.mapM (selected select method args)).runIn w = (.ok vs, w')
  numbers : vs.map Value.toNumber? = ns.map some

/-- The selections of the first elements stand for numbers, and that of the next one comes to
`answer`. -/
def ReachesSelection (select : Select σ) (method : String) (args items : List Value) (w : World σ)
    (answer : Except EvalError Value) (w' : World σ) : Prop :=
  ∃ before item after vs ns w₁, items = before ++ item :: after ∧
    SelectsNumbers select method args before w vs ns w₁ ∧
    (selected select method args item).runIn w₁ = (answer, w')

/-- The number that a selection stands for. -/
def asNumber (method : String) (v : Value) : Eval σ Number :=
  match v.toNumber? with
  | some n => return n
  | none => throw (.typeFault (.notNumeric method v.kind))

theorem numbers_eq_mapM (select : Select σ) (method : String) (items args : List Value) :
    numbers select method items args =
      items.mapM fun item => selected select method args item >>= asNumber method := rfl

theorem runIn_asNumber_eq_ok_iff {v : Value} {n : Number} :
    (asNumber method v).runIn w = (.ok n, w') ↔ v.toNumber? = some n ∧ w = w' := by
  rw [asNumber]
  cases v.toNumber? with
  | some m =>
    change (Except.ok m, w) = (Except.ok n, w') ↔ _
    simp
  | none =>
    change (Except.error _, w) = (Except.ok n, w') ↔ _
    simp

theorem runIn_asNumber_eq_error_iff {v : Value} :
    (asNumber method v).runIn w = (.error e, w') ↔
      v.toNumber? = none ∧ e = .typeFault (.notNumeric method v.kind) ∧ w = w' := by
  rw [asNumber]
  cases v.toNumber? with
  | some m =>
    change (Except.ok m, w) = (Except.error e, w') ↔ _
    simp
  | none =>
    change (Except.error _, w) = (Except.error e, w') ↔ _
    simp [eq_comm]

theorem runIn_numbers_eq_ok_iff :
    (numbers select method items args).runIn w = (.ok ns, w') ↔
      ∃ vs, SelectsNumbers select method args items w vs ns w' := by
  rw [numbers_eq_mapM]
  induction items generalizing w ns with
  | nil =>
    constructor
    · intro h
      cases h
      exact ⟨[], rfl, rfl⟩
    · rintro ⟨vs, hrun, hnumbers⟩
      cases hrun
      obtain rfl : ns = [] := List.map_eq_nil_iff.1 hnumbers.symm
      rfl
  | cons item items ih =>
    rw [Eval.runIn_mapM_cons_eq_ok_iff]
    constructor
    · rintro ⟨n, rest, w₁, rfl, hfirst, hrest⟩
      obtain ⟨v, w₂, hselected, hnumber⟩ := Eval.runIn_bind_eq_ok_iff.1 hfirst
      obtain ⟨hn, rfl⟩ := runIn_asNumber_eq_ok_iff.1 hnumber
      obtain ⟨vs, hrun, hnumbers⟩ := ih.1 hrest
      refine ⟨v :: vs, Eval.runIn_mapM_cons_eq_ok_iff.2 ⟨v, vs, w₂, rfl, hselected, hrun⟩, ?_⟩
      rw [List.map_cons, List.map_cons, hn, hnumbers]
    · rintro ⟨_, hrun, hnumbers⟩
      obtain ⟨v, vs, w₁, rfl, hselected, hrest⟩ := Eval.runIn_mapM_cons_eq_ok_iff.1 hrun
      obtain ⟨n, rest, rfl, hn, hnumbers⟩ := List.map_eq_cons_iff.1 hnumbers.symm
      refine ⟨n, rest, w₁, rfl, Eval.runIn_bind_eq_ok_iff.2 ⟨v, w₁, hselected, ?_⟩,
        ih.2 ⟨vs, hrest, hnumbers.symm⟩⟩
      exact runIn_asNumber_eq_ok_iff.2 ⟨hn.symm, rfl⟩

theorem runIn_numbers_eq_error_iff :
    (numbers select method items args).runIn w = (.error e, w') ↔
      ReachesSelection select method args items w (.error e) w' ∨
      ∃ v, ReachesSelection select method args items w (.ok v) w' ∧ v.toNumber? = none ∧
        e = .typeFault (.notNumeric method v.kind) := by
  rw [numbers_eq_mapM, Eval.runIn_mapM_eq_error_iff]
  constructor
  · rintro ⟨before, item, after, ns, w₁, hitems, hbefore, hfails⟩
    obtain ⟨vs, hselects⟩ := runIn_numbers_eq_ok_iff.1 hbefore
    obtain hselected | ⟨v, w₂, hselected, hnumber⟩ := Eval.runIn_bind_eq_error_iff.1 hfails
    · exact .inl ⟨before, item, after, vs, ns, w₁, hitems, hselects, hselected⟩
    · obtain ⟨hnone, he, rfl⟩ := runIn_asNumber_eq_error_iff.1 hnumber
      exact .inr ⟨v, ⟨before, item, after, vs, ns, w₁, hitems, hselects, hselected⟩, hnone, he⟩
  · rintro (⟨before, item, after, vs, ns, w₁, hitems, hselects, hselected⟩ |
      ⟨v, ⟨before, item, after, vs, ns, w₁, hitems, hselects, hselected⟩, hnone, he⟩)
    · exact ⟨before, item, after, ns, w₁, hitems, runIn_numbers_eq_ok_iff.2 ⟨vs, hselects⟩,
        Eval.runIn_bind_eq_error_iff.2 (.inl hselected)⟩
    · refine ⟨before, item, after, ns, w₁, hitems, runIn_numbers_eq_ok_iff.2 ⟨vs, hselects⟩,
        Eval.runIn_bind_eq_error_iff.2 (.inr ⟨v, w', hselected, ?_⟩)⟩
      exact runIn_asNumber_eq_error_iff.2 ⟨hnone, he, rfl⟩

end Numbers

/-! ### Totals -/

/-- Added to `start` one after the other, the integers give totals that all fit 64 bits. -/
def StaysWithin (start : Int) (ints : List Int64) : Prop :=
  ∀ first, first <+: ints → FitsInt64 (start + (first.map Int64.toInt).sum)

theorem staysWithin_nil {start : Int} : StaysWithin start [] ↔ FitsInt64 start := by
  simp [StaysWithin]

theorem staysWithin_cons {start : Int} {n : Int64} {ints : List Int64} :
    StaysWithin start (n :: ints) ↔ FitsInt64 start ∧ StaysWithin (start + n.toInt) ints := by
  simp only [StaysWithin, List.prefix_cons_iff]
  constructor
  · intro h
    refine ⟨by simpa using h [] (.inl rfl), fun first hfirst => ?_⟩
    have hcons := h (n :: first) (.inr ⟨first, rfl, hfirst⟩)
    rwa [List.map_cons, List.sum_cons, ← Int.add_assoc] at hcons
  · rintro ⟨hstart, hrest⟩ first (rfl | ⟨first, rfl, hfirst⟩)
    · simpa using hstart
    · rw [List.map_cons, List.sum_cons, ← Int.add_assoc]
      exact hrest first hfirst

/-- Integers are added as the operator does it. -/
theorem addToTotal_integers (D : DecimalSystem) (a b : Int64) :
    addToTotal (.integer a) (.integer b) = Operation.addition.apply D (.integer a) (.integer b) := by
  have hexact : Operation.addition.exact a.toInt b.toInt = some (a.toInt + b.toInt) := rfl
  rw [addToTotal, Operation.apply, hexact, Option.bind_some]
  cases int64Of? (a.toInt + b.toInt) <;> rfl

/-- Only two integers make an integer, and it is the exact one. -/
theorem addToTotal_eq_integer_iff {total n : Number} {s : Int64} :
    addToTotal total n = .integer s ↔
      ∃ a b : Int64, total = .integer a ∧ n = .integer b ∧ s.toInt = a.toInt + b.toInt := by
  cases total with
  | float x => simp [addToTotal]
  | integer a =>
    cases n with
    | float x => simp [addToTotal]
    | integer b =>
      have hsum : addToTotal (.integer a) (.integer b) = .integer s ↔
          int64Of? (a.toInt + b.toInt) = some s := by
        rw [addToTotal]
        cases int64Of? (a.toInt + b.toInt) <;> simp
      rw [hsum, int64Of?_eq_some_iff]
      simp

/-- A total is an integer exactly if it starts from one, all numbers are integers, and every total on
the way fits; then it is the exact one. -/
theorem foldl_addToTotal_eq_integer_iff {start : Number} {ns : List Number} {s : Int64} :
    ns.foldl addToTotal start = .integer s ↔
      ∃ (a : Int64) (ints : List Int64), start = .integer a ∧ ns = ints.map .integer ∧
        StaysWithin a.toInt ints ∧ s.toInt = a.toInt + (ints.map Int64.toInt).sum := by
  induction ns generalizing start with
  | nil =>
    constructor
    · rintro rfl
      exact ⟨s, [], rfl, rfl, staysWithin_nil.2 (fitsInt64_toInt s), by simp⟩
    · rintro ⟨a, ints, rfl, hints, -, hs⟩
      obtain rfl : ints = [] := List.map_eq_nil_iff.1 hints.symm
      obtain rfl : s = a := Int64.toInt_inj.1 (by simpa using hs)
      rfl
  | cons n ns ih =>
    rw [List.foldl_cons, ih]
    constructor
    · rintro ⟨b, ints, hb, rfl, hwithin, hs⟩
      obtain ⟨a, c, rfl, rfl, hsum⟩ := addToTotal_eq_integer_iff.1 hb
      rw [hsum] at hwithin hs
      exact ⟨a, c :: ints, rfl, rfl, staysWithin_cons.2 ⟨fitsInt64_toInt a, hwithin⟩,
        by rw [hs, List.map_cons, List.sum_cons, Int.add_assoc]⟩
    · rintro ⟨a, ints, rfl, hints, hwithin, hs⟩
      obtain ⟨c, ints, rfl, rfl, rfl⟩ := List.map_eq_cons_iff.1 hints.symm
      obtain ⟨-, hwithin⟩ := staysWithin_cons.1 hwithin
      -- The total with one more integer fits, so there is an integer that it is.
      have hfits : FitsInt64 (a.toInt + c.toInt) := by simpa using hwithin [] List.nil_prefix
      have hsum : (Int64.ofInt (a.toInt + c.toInt)).toInt = a.toInt + c.toInt := hfits.toInt_ofInt
      refine ⟨_, ints, addToTotal_eq_integer_iff.2 ⟨a, c, rfl, rfl, hsum⟩, rfl, ?_, ?_⟩
      · rwa [hsum]
      · rw [hs, hsum, List.map_cons, List.sum_cons, Int.add_assoc]

theorem arithmetic_add_eq {left right : Value} {m n : Number} (hleft : left.toNumber? = some m)
    (hright : right.toNumber? = some n) :
    arithmetic .add left right = .ok (.number (Operation.addition.apply Decimal.system m n)) := by
  rw [arithmetic_eq_of_toNumber? hleft hright]
  rfl

/-- A total that is an integer is what the operator gives, element by element. -/
theorem foldlM_add_of_foldl_addToTotal {vs : List Value} {ns : List Number} {a s : Int64}
    (hnumbers : vs.map Value.toNumber? = ns.map some)
    (h : ns.foldl addToTotal (.integer a) = .integer s) :
    vs.foldlM (arithmetic .add) (.integer a) = .ok (.integer s) := by
  induction vs generalizing ns a with
  | nil =>
    obtain rfl : ns = [] := List.map_eq_nil_iff.1 hnumbers.symm
    cases h
    rfl
  | cons v vs ih =>
    obtain ⟨n, ns, rfl, hn, hrest⟩ := List.map_eq_cons_iff.1 hnumbers.symm
    rw [List.foldl_cons] at h
    obtain ⟨b, -, hb, -, -, -⟩ := foldl_addToTotal_eq_integer_iff.1 h
    obtain ⟨-, c, -, rfl, -⟩ := addToTotal_eq_integer_iff.1 hb
    have hstep : arithmetic .add (.integer a) v = .ok (.integer b) := by
      rw [arithmetic_add_eq (m := .integer a) rfl hn.symm, ← addToTotal_integers, hb]
      rfl
    rw [List.foldlM_cons, hstep]
    rw [hb] at h
    exact ih hrest.symm h

/-! ### The method -/

/-- The sum of values that stand for numbers.  It is an integer exactly if all numbers are integers
and every total on the way fits; then it is the exact one, and what the operator `+` gives. -/
inductive IsSum (vs : List Value) (ns : List Number) : Number → Prop where
  | exact {ints : List Int64} {n : Int64} (hints : ns = ints.map .integer)
      (hwithin : StaysWithin 0 ints) (htotal : n.toInt = (ints.map Int64.toInt).sum)
      (hfold : vs.foldlM (arithmetic .add) (.integer 0) = .ok (.integer n)) :
      IsSum vs ns (.integer n)
  | float (h : ¬ ∃ ints : List Int64, ns = ints.map .integer ∧ StaysWithin 0 ints)
      (x : Binary64) : IsSum vs ns (.float x)

theorem isSum_total {vs : List Value} {ns : List Number}
    (hnumbers : vs.map Value.toNumber? = ns.map some) : IsSum vs ns (total ns) := by
  have hzero : (0 : Int64).toInt = 0 := Int64.toInt_zero
  cases h : total ns with
  | integer s =>
    obtain ⟨a, ints, ha, hints, hwithin, hs⟩ := foldl_addToTotal_eq_integer_iff.1 h
    obtain rfl := Number.integer.inj ha
    rw [hzero] at hwithin hs
    exact .exact hints hwithin (by rw [hs, Int.zero_add]) (foldlM_add_of_foldl_addToTotal hnumbers h)
  | float x =>
    refine .float ?_ x
    rintro ⟨ints, hints, hwithin⟩
    have hfits : FitsInt64 (ints.map Int64.toInt).sum := by
      simpa using hwithin ints (List.prefix_refl ints)
    have hinteger : total ns = .integer (Int64.ofInt (ints.map Int64.toInt).sum) :=
      foldl_addToTotal_eq_integer_iff.2 ⟨0, ints, rfl, hints, by rwa [hzero],
        by rw [hfits.toInt_ofInt, hzero, Int.zero_add]⟩
    rw [h] at hinteger
    exact nomatch hinteger

/-- The sum fails exactly where the selection of an element fails, or is no number, behind others
that are numbers; a value that is no number is a type error that names its kind.  Otherwise all
selections are numbers, and the sum is an integer as long as it can be. -/
theorem isSum_sum (select : Select σ) (items args : List Value) (w : World σ) :
    ∃ run : Eval σ Value, arrayMethod? select "sum" items args = some run ∧
      (∀ e w', run.runIn w = (.error e, w') ↔
        ReachesSelection select "sum" args items w (.error e) w' ∨
        ∃ v, ReachesSelection select "sum" args items w (.ok v) w' ∧ v.toNumber? = none ∧
          e = .typeFault (.notNumeric "sum" v.kind)) ∧
      (∀ r w', run.runIn w = (.ok r, w') →
        ∃ vs ns, SelectsNumbers select "sum" args items w vs ns w') ∧
      ∀ vs ns w', SelectsNumbers select "sum" args items w vs ns w' →
        ∃ n, run.runIn w = (.ok (.number n), w') ∧ IsSum vs ns n := by
  refine ⟨sum select items args, rfl, fun e w' => ?error, fun r w' h => ?numbers,
    fun vs ns w' h => ⟨total ns, ?total, isSum_total h.numbers⟩⟩
  case error =>
    rw [← runIn_numbers_eq_error_iff, sum, Eval.runIn_bind_eq_error_iff]
    simp
  case numbers =>
    obtain ⟨ns, w₁, hnumbers, hlast⟩ := Eval.runIn_bind_eq_ok_iff.1 h
    cases hlast
    obtain ⟨vs, hselects⟩ := runIn_numbers_eq_ok_iff.1 hnumbers
    exact ⟨vs, ns, hselects⟩
  case total =>
    exact Eval.runIn_bind_of_ok (runIn_numbers_eq_ok_iff.2 ⟨vs, h⟩)

/-- The largest integer with `-1` and `1` added to it: in the other order a total on the way does not
fit.  An array among the elements is no number. -/
theorem isSum_sum_in_order :
    let select : Select Unit := fun _ _ _ => return .null
    let largest : Value := .integer Int64.maxValue
    let run (items : List Value) := (sum select items []).runIn ⟨(), #[]⟩
    run [largest, .string "-1", .boolean true] = (.ok largest, ⟨(), #[]⟩) ∧
      (∃ x, run [largest, .boolean true, .string "-1"] = (.ok (.float x), ⟨(), #[]⟩)) ∧
      run [largest, .array [], .object []] =
        (.error (.typeFault (.notNumeric "sum" "array")), ⟨(), #[]⟩) := by
  intro select largest run
  have hread : readNumber? "-1" = some (.integer (-1)) := by decide +kernel
  refine ⟨?exact, ?float, ?error⟩
  case exact =>
    obtain ⟨_, hrun, -, -, hsum⟩ :=
      isSum_sum select [largest, .string "-1", .boolean true] [] ⟨(), #[]⟩
    cases hrun
    obtain ⟨n, hn, h⟩ := hsum [largest, .string "-1", .boolean true]
      ([Int64.maxValue, -1, 1].map .integer) ⟨(), #[]⟩
      ⟨rfl, by simp [Value.toNumber?, hread, largest, Value.integer]⟩
    cases h with
    | exact hints hwithin htotal hfold =>
      obtain rfl := (List.map_inj_right fun _ _ => Number.integer.inj).1 hints
      obtain rfl := Int64.toInt_inj.1 (htotal.trans (by decide : _ = Int64.maxValue.toInt))
      exact hn
    | float h x =>
      refine absurd ⟨_, rfl, ?_⟩ h
      simp only [staysWithin_cons, staysWithin_nil]
      decide
  case float =>
    obtain ⟨_, hrun, -, -, hsum⟩ :=
      isSum_sum select [largest, .boolean true, .string "-1"] [] ⟨(), #[]⟩
    cases hrun
    obtain ⟨n, hn, h⟩ := hsum [largest, .boolean true, .string "-1"]
      ([Int64.maxValue, 1, -1].map .integer) ⟨(), #[]⟩
      ⟨rfl, by simp [Value.toNumber?, hread, largest, Value.integer]⟩
    cases h with
    | exact hints hwithin htotal hfold =>
      obtain rfl := (List.map_inj_right fun _ _ => Number.integer.inj).1 hints
      simp only [staysWithin_cons, staysWithin_nil] at hwithin
      exact absurd hwithin (by decide)
    | float h x => exact ⟨x, hn⟩
  case error =>
    obtain ⟨_, hrun, herror, -, -⟩ := isSum_sum select [largest, .array [], .object []] [] ⟨(), #[]⟩
    cases hrun
    exact (herror _ _).2 (.inr ⟨.array [], ⟨[largest], .array [], [.object []], [largest],
      [.integer Int64.maxValue], _, rfl, ⟨rfl, rfl⟩, rfl⟩, rfl, rfl⟩)

end PathQuery.Collection
