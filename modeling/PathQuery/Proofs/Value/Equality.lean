/-
The two equalities of values.

Both compare arrays place by place and objects member by member, so what is to be shown of one of
them is shown of values without parts and goes up from there:

* **`Value.IsMemberwise.symm`** — symmetry goes up, though objects are compared by walking one side;
* **`Value.identical_trans`** — strict equality is transitive;
* **`Value.looselyEqual_of_identical`** — what is strictly equal is loosely equal;
* **`Value.equalities_behave`** — all laws of the two.

Design notes: where an object has two members of one name only the first is found, so symmetry and
reflexivity are stated for values whose objects have distinct names.
-/
import Mathlib.Data.List.Forall2
import PathQuery.Proofs.Fields.Matching
import PathQuery.Proofs.Number.Comparison
import PathQuery.Proofs.Value.Parts
import PathQuery.Value.Equality

namespace PathQuery

theorem Number.identical_comm (a b : Number) : a.identical b = b.identical a := by
  cases a with
  | integer m => cases b <;> simp [Number.identical, BEq.comm]
  | float x =>
    cases b with
    | integer n => rfl
    | float y => exact Number.eqv_comm (.float x) (.float y)

theorem Number.eqv_of_identical {a b : Number} (h : a.identical b = true) : a.eqv b = true := by
  cases a with
  | integer m =>
    cases b with
    | integer n =>
      obtain rfl : m = n := eq_of_beq h
      exact Number.eqv_self (.integer m)
    | float y => exact nomatch h
  | float x =>
    cases b with
    | integer n => exact nomatch h
    | float y => exact h

theorem Number.identical_trans {a b c : Number} (h : a.identical b = true)
    (h' : b.identical c = true) : a.identical c = true := by
  cases a <;> cases b <;> cases c <;> try contradiction
  case integer.integer.integer m n k => exact eq_of_beq h ▸ h'
  case float.float.float x y z => exact Binary64.eqv_trans h h'

namespace Value

open Fields (Matches names)

/-! ### Arrays and objects -/

variable {as bs : List Value} {fields others : List (String × Value)}

theorem identicalItems_iff :
    identicalItems as bs = true ↔ List.Forall₂ (fun a b => identical a b = true) as bs := by
  induction as generalizing bs with
  | nil => cases bs <;> simp [identicalItems]
  | cons a as ih => cases bs <;> simp [identicalItems, ih]

theorem looselyEqualItems_iff :
    looselyEqualItems as bs = true ↔ List.Forall₂ (fun a b => looselyEqual a b = true) as bs := by
  induction as generalizing bs with
  | nil => cases bs <;> simp [looselyEqualItems]
  | cons a as ih => cases bs <;> simp [looselyEqualItems, ih]

/-- A comparison that looks up each member under its name in `others`. -/
theorem walk_iff {equal : Value → Value → Bool} (walk : List (String × Value) → Bool)
    (hnil : walk [] = true)
    (hcons : ∀ name value rest, walk ((name, value) :: rest) =
      ((match others.lookup name with
        | some v => equal value v
        | none => false) && walk rest)) :
    walk fields = true ↔
      ∀ field ∈ fields, ∃ v, others.lookup field.1 = some v ∧ equal field.2 v = true := by
  induction fields with
  | nil => simp [hnil]
  | cons field rest ih =>
    obtain ⟨name, value⟩ := field
    rw [hcons, Bool.and_eq_true, ih, List.forall_mem_cons]
    refine and_congr_left fun _ => ?_
    cases others.lookup name with
    | some v => simp
    | none => simp

theorem identicalFields_iff :
    identicalFields fields others = true ↔
      ∀ field ∈ fields, ∃ v, others.lookup field.1 = some v ∧ field.2.identical v = true :=
  walk_iff (identicalFields · others) rfl fun _ _ _ => rfl

theorem looselyEqualFields_iff :
    looselyEqualFields fields others = true ↔
      ∀ field ∈ fields, ∃ v, others.lookup field.1 = some v ∧ field.2.looselyEqual v = true :=
  walk_iff (looselyEqualFields · others) rfl fun _ _ _ => rfl

/-- An equality that compares arrays place by place and objects member by member. -/
structure IsMemberwise (equal : Value → Value → Bool) : Prop where
  array : ∀ {as bs : List Value},
    equal (.array as) (.array bs) = true ↔ List.Forall₂ (fun a b => equal a b = true) as bs
  object : ∀ {as bs : List (String × Value)},
    equal (.object as) (.object bs) = true ↔ Matches (fun a b => equal a b = true) as bs

theorem isMemberwise_identical : IsMemberwise identical where
  array := identicalItems_iff
  object := by
    intro as bs
    rw [identical, Bool.and_eq_true, identicalFields_iff, beq_iff_eq]
    exact ⟨fun h => ⟨h.1, h.2⟩, fun h => ⟨h.length_eq, h.found⟩⟩

theorem isMemberwise_looselyEqual : IsMemberwise looselyEqual where
  array := looselyEqualItems_iff
  object := by
    intro as bs
    rw [looselyEqual, Bool.and_eq_true, looselyEqualFields_iff, beq_iff_eq]
    exact ⟨fun h => ⟨h.1, h.2⟩, fun h => ⟨h.length_eq, h.found⟩⟩

/-- Two arrays or two objects, which are compared by their parts. -/
inductive BothNested : Value → Value → Prop where
  | array (as bs : List Value) : BothNested (.array as) (.array bs)
  | object (as bs : List (String × Value)) : BothNested (.object as) (.object bs)

namespace IsMemberwise

variable {equal : Value → Value → Bool} (h : IsMemberwise equal)

include h

/-- The order of the members matters on neither side. -/
theorem object_perm (hnames : (names fields).Nodup) (hperm : fields.Perm others)
    (members : List (String × Value)) :
    equal (.object fields) (.object members) = equal (.object others) (.object members) ∧
      equal (.object members) (.object fields) = equal (.object members) (.object others) := by
  constructor
  · rw [Bool.eq_iff_iff, h.object, h.object, Fields.matches_left_congr hperm]
  · rw [Bool.eq_iff_iff, h.object, h.object, Fields.matches_right_congr hnames hperm]

/-- Symmetry goes up from values that are not compared by their parts. -/
theorem symm (hflat : ∀ a b, ¬ BothNested a b → equal a b = true → equal b a = true) {a : Value}
    (ha : a.hasDistinctNames = true) : ∀ {b : Value}, equal a b = true → equal b a = true := by
  induction a using partsInduction with
  | whole a ih =>
    intro b hab
    by_cases hnested : BothNested a b
    · cases hnested with
      | array as bs =>
        rw [h.array, List.forall₂_iff_get] at hab ⊢
        exact ⟨hab.1.symm, fun i hi hi' =>
          ih _ (as.get_mem _) (hasDistinctNames_of_mem_parts ha (as.get_mem _)) (hab.2 i hi' hi)⟩
      | object as bs =>
        rw [h.object] at hab ⊢
        exact (hab.flip (nodup_names ha)).imp fun b _ a hmem =>
          ih a hmem (hasDistinctNames_of_mem_parts ha hmem)
    · exact hflat a b hnested hab

/-- A value equals itself if no value in it without parts keeps it from that. -/
theorem self_eq (hflat : ∀ v, ¬ BothNested v v → equal v v = !v.isNaN) {v : Value}
    (hv : v.hasDistinctNames = true) : equal v v = v.hasNoNaN := by
  induction v using partsInduction with
  | whole v ih =>
    have hparts : (∀ u ∈ v.parts, equal u u = true) ↔ ∀ u ∈ v.parts, u.hasNoNaN = true :=
      forall₂_congr fun u hu => by rw [ih u hu (hasDistinctNames_of_mem_parts hv hu)]
    have hself : equal v v = true ↔ v.isNaN = false ∧ ∀ u ∈ v.parts, equal u u = true := by
      cases v with
      | array items => simp [h.array, List.forall₂_same, isNaN, parts]
      | object fields =>
        rw [h.object, Fields.matches_self_iff (nodup_names hv)]
        simp [isNaN, parts]
      | _ =>
        rw [hflat _ (by rintro ⟨⟩)]
        simp [parts]
    rw [Bool.eq_iff_iff, hself, hparts, hasNoNaN, throughout_iff, Bool.not_eq_true']
    rfl

end IsMemberwise

/-! ### Values without parts -/

/-- Whether a value is null or a boolean, which are compared by truth. -/
def isTruth : Value → Bool
  | .null => true
  | .boolean _ => true
  | _ => false

/-- Equality by number if both values stand for numbers, and strict equality otherwise. -/
def equalByNumber (a b : Value) : Bool :=
  match a.numeric?, b.numeric? with
  | some x, some y => x.eqv y
  | _, _ => a.identical b

variable {a b : Value}

theorem equalByNumber_of_some {x y : Number} (ha : a.numeric? = some x) (hb : b.numeric? = some y) :
    a.equalByNumber b = x.eqv y := by
  rw [equalByNumber, ha, hb]

theorem equalByNumber_of_none (h : a.numeric? = none ∨ b.numeric? = none) :
    a.equalByNumber b = a.identical b := by
  rw [equalByNumber]
  obtain h | h := h
  · rw [h]
  · rw [h]
    cases a.numeric? <;> rfl

theorem looselyEqual_of_isTruth_left (ha : a.isTruth = true) :
    a.looselyEqual b = (a.isTruthy == b.isTruthy) := by
  cases a with
  | null => cases b <;> simp [looselyEqual, isTruthy]
  | boolean t => cases b <;> cases t <;> simp [looselyEqual, isTruthy]
  | _ => exact nomatch ha

theorem looselyEqual_of_isTruth_right (hb : b.isTruth = true) :
    a.looselyEqual b = (a.isTruthy == b.isTruthy) := by
  cases b with
  | null => cases a <;> simp [looselyEqual, isTruthy]
  | boolean t => cases a <;> cases t <;> simp [looselyEqual, isTruthy]
  | _ => exact nomatch hb

theorem looselyEqual_of_flat (ha : a.isTruth = false) (hb : b.isTruth = false)
    (hflat : ¬ BothNested a b) : a.looselyEqual b = a.equalByNumber b := by
  cases a <;> cases b
  case array.array as bs => exact absurd (.array as bs) hflat
  case object.object as bs => exact absurd (.object as bs) hflat
  all_goals first | rfl | contradiction

/-- What strict equality comes from. -/
inductive AreIdentical : Value → Value → Prop where
  | null : AreIdentical .null .null
  | boolean (t : Bool) : AreIdentical (.boolean t) (.boolean t)
  | number {m n : Number} (h : m.identical n = true) : AreIdentical (.number m) (.number n)
  | string (s : String) : AreIdentical (.string s) (.string s)
  | array {as bs : List Value} (h : List.Forall₂ (fun a b => a.identical b = true) as bs) :
    AreIdentical (.array as) (.array bs)
  | object {as bs : List (String × Value)} (h : Matches (fun a b => a.identical b = true) as bs) :
    AreIdentical (.object as) (.object bs)
  | host {o p : HostObject} (h : o.id = p.id) : AreIdentical (.host o) (.host p)
  | function (f : FunctionRef) : AreIdentical (.function f) (.function f)
  | deferred (l : LazyRef) : AreIdentical (.deferred l) (.deferred l)

theorem areIdentical_of_identical (h : a.identical b = true) : AreIdentical a b := by
  cases a <;> cases b <;> try contradiction
  case null.null => exact .null
  case boolean.boolean s t => exact eq_of_beq h ▸ .boolean s
  case number.number m n => exact .number h
  case string.string s t => exact eq_of_beq h ▸ .string s
  case array.array as bs => exact .array (isMemberwise_identical.array.1 h)
  case object.object as bs => exact .object (isMemberwise_identical.object.1 h)
  case host.host o p => exact .host (eq_of_beq h)
  case function.function f g => exact eq_of_beq h ▸ .function f
  case deferred.deferred f g => exact eq_of_beq h ▸ .deferred f

theorem identical_symm_of_flat (hflat : ¬ BothNested a b) (h : a.identical b = true) :
    b.identical a = true := by
  cases areIdentical_of_identical h with
  | number hn => exact (Number.identical_comm _ _).trans hn
  | host ho => exact beq_iff_eq.2 ho.symm
  | array => exact absurd (.array _ _) hflat
  | object => exact absurd (.object _ _) hflat
  | _ => exact h

theorem equalByNumber_symm_of_flat (hflat : ¬ BothNested a b) (h : a.equalByNumber b = true) :
    b.equalByNumber a = true := by
  cases ha : a.numeric? with
  | none =>
    rw [equalByNumber_of_none (.inl ha)] at h
    rw [equalByNumber_of_none (.inr ha)]
    exact identical_symm_of_flat hflat h
  | some m =>
    cases hb : b.numeric? with
    | none =>
      rw [equalByNumber_of_none (.inr hb)] at h
      rw [equalByNumber_of_none (.inl hb)]
      exact identical_symm_of_flat hflat h
    | some n =>
      rw [equalByNumber_of_some ha hb] at h
      rw [equalByNumber_of_some hb ha, Number.eqv_comm, h]

theorem looselyEqual_symm_of_flat (hflat : ¬ BothNested a b) (h : a.looselyEqual b = true) :
    b.looselyEqual a = true := by
  cases ha : a.isTruth with
  | true =>
    rw [looselyEqual_of_isTruth_left ha] at h
    rw [looselyEqual_of_isTruth_right ha, BEq.comm, h]
  | false =>
    cases hb : b.isTruth with
    | true =>
      rw [looselyEqual_of_isTruth_right hb] at h
      rw [looselyEqual_of_isTruth_left hb, BEq.comm, h]
    | false =>
      have hflat' : ¬ BothNested b a := fun hnested => hflat (by cases hnested <;> constructor)
      rw [looselyEqual_of_flat ha hb hflat] at h
      rw [looselyEqual_of_flat hb ha hflat']
      exact equalByNumber_symm_of_flat hflat h

theorem identical_symm (ha : a.hasDistinctNames = true) (h : a.identical b = true) :
    b.identical a = true :=
  isMemberwise_identical.symm (fun _ _ => identical_symm_of_flat) ha h

theorem looselyEqual_symm (ha : a.hasDistinctNames = true) (h : a.looselyEqual b = true) :
    b.looselyEqual a = true :=
  isMemberwise_looselyEqual.symm (fun _ _ => looselyEqual_symm_of_flat) ha h

theorem identical_trans {c : Value} (h : a.identical b = true) (h' : b.identical c = true) :
    a.identical c = true := by
  induction a using partsInduction generalizing b c with
  | whole a ih =>
    cases areIdentical_of_identical h with
    | number hn =>
      cases areIdentical_of_identical h' with
      | number hn' => exact Number.identical_trans hn hn'
    | array has =>
      cases areIdentical_of_identical h' with
      | array hbs =>
        rw [List.forall₂_iff_get] at has hbs
        refine isMemberwise_identical.array.2 (List.forall₂_iff_get.2 ?_)
        exact ⟨has.1.trans hbs.1, fun i hi hi' =>
          ih _ (List.get_mem _ _) (has.2 i hi (has.1 ▸ hi)) (hbs.2 i (has.1 ▸ hi) hi')⟩
    | object has =>
      cases areIdentical_of_identical h' with
      | object hbs =>
        exact isMemberwise_identical.object.2 (has.trans hbs fun a hmem b c => ih a hmem)
    | host ho =>
      cases areIdentical_of_identical h' with
      | host hp => exact beq_iff_eq.2 (ho.trans hp)
    | _ => exact h'

/-- What is strictly equal is loosely equal. -/
theorem looselyEqual_of_identical (h : a.identical b = true) : a.looselyEqual b = true := by
  induction a using partsInduction generalizing b with
  | whole a ih =>
    cases areIdentical_of_identical h with
    | boolean t => exact beq_self_eq_true t
    | number hn => exact Number.eqv_of_identical hn
    | string s =>
      have hflat : ¬ BothNested (.string s) (.string s) := nofun
      rw [looselyEqual_of_flat rfl rfl hflat]
      cases hn : (Value.string s).numeric? with
      | none => exact (equalByNumber_of_none (.inl hn)).trans h
      | some n =>
        rw [equalByNumber_of_some hn hn]
        rw [Number.eqv_self, isNaN_of_readNumber? hn]
        rfl
    | @array as bs has =>
      rw [List.forall₂_iff_get] at has
      refine isMemberwise_looselyEqual.array.2 (List.forall₂_iff_get.2 ?_)
      exact ⟨has.1, fun i hi hi' => ih _ (as.get_mem _) (has.2 i hi hi')⟩
    | object has =>
      exact isMemberwise_looselyEqual.object.2 (has.imp fun a hmem b _ => ih a hmem)
    | _ => exact h

/-- Only a NaN keeps a value without parts from being equal to itself. -/
theorem identical_self_of_flat (hflat : ¬ BothNested a a) : a.identical a = !a.isNaN := by
  cases a with
  | number n =>
    cases n with
    | integer n => exact beq_self_eq_true n
    | float x => exact Number.eqv_self (.float x)
  | array items => exact absurd (.array items items) hflat
  | object fields => exact absurd (.object fields fields) hflat
  | _ => simp [identical, isNaN]

theorem looselyEqual_self_of_flat (hflat : ¬ BothNested a a) : a.looselyEqual a = !a.isNaN := by
  cases hnumber : a.isNaN with
  | false =>
    refine looselyEqual_of_identical ?_
    rw [identical_self_of_flat hflat, hnumber]
    rfl
  | true =>
    cases a with
    | number n => exact (Number.eqv_self n).trans (congrArg not hnumber)
    | _ => exact nomatch hnumber

/-! ### The laws -/

variable {fields others : List (String × Value)}

theorem identical_object_perm (hnames : (names fields).Nodup) (hperm : fields.Perm others)
    (v : Value) :
    (object fields).identical v = (object others).identical v ∧
      v.identical (object fields) = v.identical (object others) := by
  cases v with
  | object members => exact isMemberwise_identical.object_perm hnames hperm members
  | _ => exact ⟨rfl, rfl⟩

theorem looselyEqual_object_perm (hnames : (names fields).Nodup) (hperm : fields.Perm others)
    (v : Value) :
    (object fields).looselyEqual v = (object others).looselyEqual v ∧
      v.looselyEqual (object fields) = v.looselyEqual (object others) := by
  have htruthy : (object fields).isTruthy = (object others).isTruthy :=
    congrArg not hperm.isEmpty_eq
  cases v with
  | object members => exact isMemberwise_looselyEqual.object_perm hnames hperm members
  | null =>
    rw [looselyEqual_of_isTruth_right rfl, looselyEqual_of_isTruth_right rfl,
      looselyEqual_of_isTruth_left rfl, looselyEqual_of_isTruth_left rfl, htruthy]
    exact ⟨rfl, rfl⟩
  | boolean t =>
    rw [looselyEqual_of_isTruth_right rfl, looselyEqual_of_isTruth_right rfl,
      looselyEqual_of_isTruth_left rfl, looselyEqual_of_isTruth_left rfl, htruthy]
    exact ⟨rfl, rfl⟩
  | _ => exact ⟨rfl, rfl⟩

/-- Both equalities are symmetric, strict equality is transitive and implies loose equality.  A
value equals itself, in either sense, exactly if there is no NaN in it.  The order of an object's
members matters to neither, on neither side.  Functions, lazy values and objects of the host are
compared by identity. -/
theorem equalities_behave :
    (∀ a b : Value, a.hasDistinctNames = true → b.hasDistinctNames = true →
      a.identical b = b.identical a ∧ a.looselyEqual b = b.looselyEqual a) ∧
    (∀ a b c : Value, a.identical b = true → b.identical c = true → a.identical c = true) ∧
    (∀ a b : Value, a.identical b = true → a.looselyEqual b = true) ∧
    (∀ v : Value, v.hasDistinctNames = true →
      v.identical v = v.hasNoNaN ∧ v.looselyEqual v = v.hasNoNaN) ∧
    (∀ fields others : List (String × Value), (names fields).Nodup → fields.Perm others →
      ∀ v : Value,
        (object fields).identical v = (object others).identical v ∧
        v.identical (object fields) = v.identical (object others) ∧
        (object fields).looselyEqual v = (object others).looselyEqual v ∧
        v.looselyEqual (object fields) = v.looselyEqual (object others)) ∧
    (∀ f g : FunctionRef, ((function f).identical (function g) = true ↔ f = g) ∧
      ((function f).looselyEqual (function g) = true ↔ f = g)) ∧
    (∀ l m : LazyRef, ((deferred l).identical (deferred m) = true ↔ l = m) ∧
      ((deferred l).looselyEqual (deferred m) = true ↔ l = m)) ∧
    ∀ o p : HostObject, ((host o).identical (host p) = true ↔ o.id = p.id) ∧
      ((host o).looselyEqual (host p) = true ↔ o.id = p.id) := by
  refine ⟨?symmetry, fun _ _ _ => identical_trans, fun _ _ => looselyEqual_of_identical, ?self,
    ?order, fun _ _ => ⟨beq_iff_eq, beq_iff_eq⟩, fun _ _ => ⟨beq_iff_eq, beq_iff_eq⟩,
    fun _ _ => ⟨beq_iff_eq, beq_iff_eq⟩⟩
  case symmetry =>
    intro a b ha hb
    exact ⟨Bool.eq_iff_iff.2 ⟨identical_symm ha, identical_symm hb⟩,
      Bool.eq_iff_iff.2 ⟨looselyEqual_symm ha, looselyEqual_symm hb⟩⟩
  case self =>
    intro v hv
    exact ⟨isMemberwise_identical.self_eq (fun _ => identical_self_of_flat) hv,
      isMemberwise_looselyEqual.self_eq (fun _ => looselyEqual_self_of_flat) hv⟩
  case order =>
    intro fields others hnames hperm v
    obtain ⟨hleft, hright⟩ := identical_object_perm hnames hperm v
    exact ⟨hleft, hright, looselyEqual_object_perm hnames hperm v⟩

/-- Objects with their members in another order, and with loosely equal ones. -/
theorem equalities_behave_of_members :
    let v : Value := object [("x", array [null, string "0"]), ("y", boolean true)]
    let v' : Value := object [("y", boolean true), ("x", array [null, string "0"])]
    let w : Value := object [("y", number (.integer 7)), ("x", array [string "", null])]
    (v.hasDistinctNames && v'.hasDistinctNames && w.hasDistinctNames && v.hasNoNaN) = true ∧
      v.looselyEqual w = true ∧ w.looselyEqual v = true ∧ v.identical v' = true ∧
      v'.identical v = true ∧ v.identical v = true ∧ v.looselyEqual v' = true := by
  intro v v' w
  obtain ⟨hsymm, htrans, himp, hself, horder, -⟩ := equalities_behave
  have hv : v.hasDistinctNames = true := by decide
  have hv' : v'.hasDistinctNames = true := by decide
  have hw : w.hasDistinctNames = true := by decide
  have hvw : v.looselyEqual w = true := by decide
  have hvv' : v.identical v' = true := by
    rw [← (horder _ _ (nodup_names hv) (.swap _ _ []) v).2.1]
    exact (hself v hv).1
  have hv'v : v'.identical v = true := (hsymm v v' hv hv').1 ▸ hvv'
  exact ⟨by decide, hvw, (hsymm v w hv hw).2 ▸ hvw, hvv', hv'v, htrans v v' v hvv' hv'v,
    himp v v' hvv'⟩

end Value

end PathQuery
