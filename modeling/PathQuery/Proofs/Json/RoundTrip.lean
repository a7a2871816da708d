/-
Documents and values, back and forth.

* **`Value.IsData`, `Json.IsDocument`** — the values that documents hold, and the documents;
* **`Value.toJson_eq_pure`** — such a value becomes a document without the host;
* **`Value.identical_toValue_document`** — and the document becomes a value that is strictly equal
  to it;
* **`Json.document_toValue`** — a document comes back with the integers beyond the signed 64 bits as
  floats, and else as it was;
* **`Json.converts_back`** — what is lost on the way, in both directions.

Design notes: members of values are in any order, those of documents are sorted.  Equality of
documents is that of numbers of one kind, so no float stands for an integer in it.
-/
import Mathlib.Algebra.Group.Int.Defs
import PathQuery.Json.Convert
import PathQuery.Proofs.Evaluation.Runs
import PathQuery.Proofs.Json.Members
import PathQuery.Proofs.Token.Lexed
import PathQuery.Proofs.Value.Equality

namespace PathQuery

open Fields (names Sorted)

/-! ### Data -/

/-- Values made of null, booleans, integers, finite floats and strings, in arrays and objects.  The
names of each object satisfy `P`. -/
inductive Value.IsData (P : List String → Prop) : Value → Prop where
  | null : IsData P .null
  | boolean (b : Bool) : IsData P (.boolean b)
  | integer (n : Int64) : IsData P (.integer n)
  | float {x : Binary64} (h : x.isFinite = true) : IsData P (.float x)
  | string (s : String) : IsData P (.string s)
  | array {items : List Value} (h : ∀ v ∈ items, IsData P v) : IsData P (.array items)
  | object {fields : List (String × Value)} (hnames : P (names fields))
      (h : ∀ field ∈ fields, IsData P field.2) : IsData P (.object fields)

/-- Documents: integers of 64 bits with or without a sign, finite floats, and sorted members. -/
inductive Json.IsDocument : Json → Prop where
  | null : IsDocument .null
  | boolean (b : Bool) : IsDocument (.boolean b)
  | integer {n : Int} (hlow : -2 ^ 63 ≤ n) (hhigh : n < 2 ^ 64) : IsDocument (.integer n)
  | float {x : Binary64} (h : x.isFinite = true) : IsDocument (.float x)
  | string (s : String) : IsDocument (.string s)
  | array {items : List Json} (h : ∀ j ∈ items, IsDocument j) : IsDocument (.array items)
  | object {members : List (String × Json)} (hnames : Sorted (names members))
      (h : ∀ member ∈ members, IsDocument member.2) : IsDocument (.object members)

namespace Json

theorem numberOfInt_of_lt {n : Int} (hlow : -2 ^ 63 ≤ n) (hhigh : n < 2 ^ 63) :
    numberOfInt n = .integer (.ofInt n) := by
  rw [numberOfInt, int64Of?, if_pos ⟨hlow, hhigh⟩]

theorem numberOfInt_of_le {n : Int} (h : 2 ^ 63 ≤ n) : numberOfInt n = .float (.ofInt n) := by
  rw [numberOfInt, int64Of?, if_neg fun hn => Int.not_le.2 hn.2 h]

theorem numberOfInt_toInt (n : Int64) : numberOfInt n.toInt = .integer n := by
  rw [numberOfInt_of_lt n.le_toInt n.toInt_lt, Int64.ofInt_toInt]

theorem itemValues_eq_map (items : List Json) : itemValues items = items.map toValue := by
  induction items with
  | nil => rfl
  | cons item rest ih => rw [itemValues, ih, List.map_cons]

theorem memberValues_eq_map (members : List (String × Json)) :
    memberValues members = members.map fun member => (member.1, member.2.toValue) := by
  induction members with
  | nil => rfl
  | cons member rest ih => rw [memberValues, ih, List.map_cons]

end Json

namespace Value

mutual

/-- The document of data. -/
def document : Value → Json
  | .null => .null
  | .boolean b => .boolean b
  | .number n => .ofNumber n
  | .string s => .string s
  | .array items => .array (itemDocuments items)
  | .object fields => .ofMembers (fieldDocuments fields)
  | .host _ => .null
  | .function _ => .null
  | .deferred _ => .null

def itemDocuments : List Value → List Json
  | [] => []
  | item :: rest => item.document :: itemDocuments rest

def fieldDocuments : List (String × Value) → List (String × Json)
  | [] => []
  | (name, value) :: rest => (name, value.document) :: fieldDocuments rest

end

theorem itemDocuments_eq_map (items : List Value) : itemDocuments items = items.map document := by
  induction items with
  | nil => rfl
  | cons item rest ih => rw [itemDocuments, ih, List.map_cons]

theorem fieldDocuments_eq_map (fields : List (String × Value)) :
    fieldDocuments fields = fields.map fun field => (field.1, field.2.document) := by
  induction fields with
  | nil => rfl
  | cons field rest ih => rw [fieldDocuments, ih, List.map_cons]

theorem names_fieldDocuments (fields : List (String × Value)) :
    names (fieldDocuments fields) = names fields := by
  rw [fieldDocuments_eq_map, names, names, List.map_map]
  rfl

variable {σ : Type} {P : List String → Prop} {v : Value}

/-- Data has a document, and nothing is computed for it. -/
theorem toJsonWith_eq_pure (compute : LazyRef → Eval σ Json) (h : v.IsData P) :
    v.toJsonWith compute = pure v.document := by
  induction h with
  | null => rfl
  | boolean b => rfl
  | integer n => rfl
  | float hx => rfl
  | string s => rfl
  | @array items h ih =>
    have hitems : itemsToJson compute items = pure (itemDocuments items) := by
      clear h
      induction items with
      | nil => rfl
      | cons item rest ihrest =>
        rw [List.forall_mem_cons] at ih
        rw [itemsToJson, ih.1, ihrest ih.2]
        rfl
    rw [toJsonWith, hitems]
    rfl
  | @object fields hnames h ih =>
    have hfields : fieldsToJson compute fields = pure (fieldDocuments fields) := by
      clear h hnames
      induction fields with
      | nil => rfl
      | cons field rest ihrest =>
        rw [List.forall_mem_cons] at ih
        rw [fieldsToJson, ih.1, ihrest ih.2]
        rfl
    rw [toJsonWith, hfields]
    rfl

theorem toJson_eq_pure (host : Host σ) (h : v.IsData P) : v.toJson host = pure v.document :=
  toJsonWith_eq_pure _ h

theorem isDocument_document (h : v.IsData List.Nodup) : v.document.IsDocument := by
  induction h with
  | null => exact .null
  | boolean b => exact .boolean b
  | integer n => exact .integer n.le_toInt (Int.lt_trans n.toInt_lt (by decide))
  | @float x hx =>
    change (if x.isFinite then Json.float x else .null).IsDocument
    rw [if_pos hx]
    exact .float hx
  | string s => exact .string s
  | array h ih =>
    rw [document, itemDocuments_eq_map]
    refine .array fun j hj => ?_
    obtain ⟨v, hv, rfl⟩ := List.mem_map.1 hj
    exact ih v hv
  | @object fields hnames h ih =>
    rw [← names_fieldDocuments] at hnames
    rw [document, Json.ofMembers_eq]
    refine .object (Json.sorted_sortMembers hnames) fun member hmember => ?_
    rw [(Json.perm_sortMembers hnames).mem_iff, fieldDocuments_eq_map] at hmember
    obtain ⟨field, hfield, rfl⟩ := List.mem_map.1 hmember
    exact ih field hfield

/-! ### Strict equality -/

theorem identicalItems_map {f : Value → Value} {items : List Value}
    (h : ∀ v ∈ items, (f v).identical v = true) :
    identicalItems (items.map f) items = true := by
  induction items with
  | nil => rfl
  | cons item rest ih =>
    rw [List.forall_mem_cons] at h
    rw [List.map_cons, identicalItems, h.1, ih h.2]
    rfl

/-- The document of data becomes a value that is strictly equal to it. -/
theorem identical_toValue_document (h : v.IsData List.Nodup) :
    v.document.toValue.identical v = true := by
  induction h with
  | null => rfl
  | boolean b => exact beq_self_eq_true b
  | integer n =>
    change Number.identical (Json.numberOfInt n.toInt) (.integer n) = true
    rw [Json.numberOfInt_toInt]
    exact beq_self_eq_true n
  | @float x hx =>
    change (if x.isFinite then Json.float x else .null).toValue.identical _ = true
    rw [if_pos hx]
    exact Binary64.eqv_self hx
  | string s => exact beq_self_eq_true s
  | @array items h ih =>
    rw [document, itemDocuments_eq_map, Json.toValue, Json.itemValues_eq_map, List.map_map]
    exact identicalItems_map ih
  | @object fields hnames h ih =>
    have hperm := Json.perm_sortMembers (names_fieldDocuments fields ▸ hnames)
    rw [document, Json.ofMembers_eq, Json.toValue, Json.memberValues_eq_map, identical,
      Bool.and_eq_true, identicalFields_iff]
    constructor
    · rw [List.length_map, hperm.length_eq, fieldDocuments_eq_map, List.length_map]
      exact beq_self_eq_true _
    · intro field hfield
      -- The member comes from a member of the same name, which the object has once.
      obtain ⟨member, hmember, rfl⟩ := List.mem_map.1 hfield
      rw [hperm.mem_iff, fieldDocuments_eq_map] at hmember
      obtain ⟨own, hown, rfl⟩ := List.mem_map.1 hmember
      exact ⟨own.2, Fields.lookup_of_mem hnames hown, ih own hown⟩

end Value

namespace Json

/-! ### Documents that come back -/

mutual

/-- The integers in a document. -/
def integers : Json → List Int
  | .integer n => [n]
  | .array items => integersOfItems items
  | .object members => integersOfMembers members
  | _ => []

def integersOfItems : List Json → List Int
  | [] => []
  | item :: rest => item.integers ++ integersOfItems rest

def integersOfMembers : List (String × Json) → List Int
  | [] => []
  | (_, value) :: rest => value.integers ++ integersOfMembers rest

end

/-- No integer in a document is beyond the signed 64 bits. -/
def FitsSigned (j : Json) : Prop := ∀ n ∈ j.integers, n < 2 ^ 63

mutual

/-- Equality of documents: numbers of one kind are compared by value. -/
def same : Json → Json → Bool
  | .null, .null => true
  | .boolean a, .boolean b => a == b
  | .integer m, .integer n => m == n
  | .float x, .float y => x.eqv y
  | .string a, .string b => a == b
  | .array as, .array bs => sameItems as bs
  | .object as, .object bs => sameMembers as bs
  | _, _ => false

def sameItems : List Json → List Json → Bool
  | [], [] => true
  | a :: as, b :: bs => same a b && sameItems as bs
  | _, _ => false

def sameMembers : List (String × Json) → List (String × Json) → Bool
  | [], [] => true
  | (m, a) :: as, (n, b) :: bs => m == n && same a b && sameMembers as bs
  | _, _ => false

end

mutual

/-- A document whose integers beyond the signed 64 bits are the nearest floats instead. -/
def narrowed : Json → Json
  | .integer n => if n < 2 ^ 63 then .integer n else .float (.ofInt n)
  | .array items => .array (narrowedItems items)
  | .object members => .object (narrowedMembers members)
  | j => j

def narrowedItems : List Json → List Json
  | [] => []
  | item :: rest => item.narrowed :: narrowedItems rest

def narrowedMembers : List (String × Json) → List (String × Json)
  | [] => []
  | (name, value) :: rest => (name, value.narrowed) :: narrowedMembers rest

end

theorem narrowedItems_eq_map (items : List Json) : narrowedItems items = items.map narrowed := by
  induction items with
  | nil => rfl
  | cons item rest ih => rw [narrowedItems, ih, List.map_cons]

theorem narrowedMembers_eq_map (members : List (String × Json)) :
    narrowedMembers members = members.map fun member => (member.1, member.2.narrowed) := by
  induction members with
  | nil => rfl
  | cons member rest ih => rw [narrowedMembers, ih, List.map_cons]

theorem fitsSigned_array {items : List Json} :
    (Json.array items).FitsSigned ↔ ∀ item ∈ items, item.FitsSigned := by
  change (∀ n ∈ integersOfItems items, n < 2 ^ 63) ↔ _
  induction items with
  | nil => simp [integersOfItems]
  | cons item rest ih =>
    rw [integersOfItems, List.forall_mem_append, List.forall_mem_cons, ih]
    rfl

theorem fitsSigned_object {members : List (String × Json)} :
    (Json.object members).FitsSigned ↔ ∀ member ∈ members, member.2.FitsSigned := by
  change (∀ n ∈ integersOfMembers members, n < 2 ^ 63) ↔ _
  induction members with
  | nil => simp [integersOfMembers]
  | cons member rest ih =>
    rw [integersOfMembers, List.forall_mem_append, List.forall_mem_cons, ih]
    rfl

variable {j : Json}

/-- The value of a document is data, with sorted members. -/
theorem isData_toValue (h : j.IsDocument) : j.toValue.IsData Sorted := by
  induction h with
  | null => exact .null
  | boolean b => exact .boolean b
  | @integer n hlow hhigh =>
    change (Value.number (numberOfInt n)).IsData Sorted
    obtain hlt | hle := Int.lt_or_le n (2 ^ 63)
    · rw [numberOfInt_of_lt hlow hlt]
      exact .integer _
    · rw [numberOfInt_of_le hle]
      exact .float (Binary64.isFinite_ofInt (by omega))
  | float hx => exact .float hx
  | string s => exact .string s
  | array h ih =>
    rw [toValue, itemValues_eq_map]
    refine .array fun v hv => ?_
    obtain ⟨item, hitem, rfl⟩ := List.mem_map.1 hv
    exact ih item hitem
  | @object members hnames h ih =>
    rw [toValue, memberValues_eq_map]
    refine .object ?_ fun field hfield => ?_
    · rw [names, List.map_map]
      exact hnames
    · obtain ⟨member, hmember, rfl⟩ := List.mem_map.1 hfield
      exact ih member hmember

/-- A document comes back, with the integers beyond the signed 64 bits as floats. -/
theorem document_toValue (h : j.IsDocument) : j.toValue.document = j.narrowed := by
  induction h with
  | null => rfl
  | boolean b => rfl
  | @integer n hlow hhigh =>
    change ofNumber (numberOfInt n) = if n < 2 ^ 63 then .integer n else .float (.ofInt n)
    obtain hlt | hle := Int.lt_or_le n (2 ^ 63)
    · rw [numberOfInt_of_lt hlow hlt, if_pos hlt, ofNumber, Int64.toInt_ofInt_of_le hlow hlt]
    · have hfinite : (Binary64.ofInt n).isFinite = true := Binary64.isFinite_ofInt (by omega)
      rw [numberOfInt_of_le hle, if_neg (Int.not_lt.2 hle), ofNumber, if_pos hfinite]
  | float hx => exact if_pos hx
  | string s => rfl
  | array h ih =>
    rw [toValue, itemValues_eq_map, Value.document, Value.itemDocuments_eq_map, List.map_map,
      narrowed, narrowedItems_eq_map]
    exact congrArg array (List.map_congr_left ih)
  | @object members hnames h ih =>
    have hmembers : Value.fieldDocuments (memberValues members) = narrowedMembers members := by
      rw [memberValues_eq_map, Value.fieldDocuments_eq_map, List.map_map, narrowedMembers_eq_map]
      exact List.map_congr_left fun member hmember =>
        congrArg (Prod.mk member.1) (ih member hmember)
    rw [toValue, Value.document, hmembers, narrowed]
    -- The members are in order already.
    refine ofMembers_of_sorted ?_
    rw [narrowedMembers_eq_map, names, List.map_map]
    exact hnames

theorem narrowed_of_fitsSigned (h : j.IsDocument) (hfits : j.FitsSigned) : j.narrowed = j := by
  induction h with
  | integer hlow hhigh => exact if_pos (hfits _ (List.mem_singleton_self _))
  | @array items h ih =>
    rw [fitsSigned_array] at hfits
    have hitems : items.map narrowed = items.map id :=
      List.map_congr_left fun item hitem => ih item hitem (hfits item hitem)
    rw [narrowed, narrowedItems_eq_map, hitems, List.map_id]
  | @object members hnames h ih =>
    rw [fitsSigned_object] at hfits
    have hmembers : (members.map fun member => (member.1, member.2.narrowed)) = members.map id :=
      List.map_congr_left fun member hmember =>
        congrArg (Prod.mk member.1) (ih member hmember (hfits member hmember))
    rw [narrowed, narrowedMembers_eq_map, hmembers, List.map_id]
  | _ => rfl

theorem same_self (h : j.IsDocument) : j.same j = true := by
  induction h with
  | null => rfl
  | boolean b => exact beq_self_eq_true b
  | integer hlow hhigh => exact beq_self_eq_true _
  | float hx => exact Binary64.eqv_self hx
  | string s => exact beq_self_eq_true s
  | @array items h ih =>
    change sameItems items items = true
    clear h
    induction items with
    | nil => rfl
    | cons item rest ihrest =>
      rw [List.forall_mem_cons] at ih
      rw [sameItems, ih.1, ihrest ih.2]
      rfl
  | @object members hnames h ih =>
    change sameMembers members members = true
    clear h hnames
    induction members with
    | nil => rfl
    | cons member rest ihrest =>
      rw [List.forall_mem_cons] at ih
      rw [sameMembers, beq_self_eq_true, ih.1, ihrest ih.2]
      rfl

/-- A float is the same as no integer, so the document that comes back shows what was lost. -/
theorem fitsSigned_of_same (h : j.IsDocument) (hsame : j.narrowed.same j = true) :
    j.FitsSigned := by
  induction h with
  | @integer n hlow hhigh =>
    rw [narrowed] at hsame
    split at hsame
    case isTrue hlt => exact fun m hm => List.mem_singleton.1 hm ▸ hlt
    case isFalse => exact nomatch hsame
  | @array items h ih =>
    rw [fitsSigned_array]
    change sameItems (narrowedItems items) items = true at hsame
    clear h
    induction items with
    | nil => exact List.forall_mem_nil _
    | cons item rest ihrest =>
      rw [List.forall_mem_cons] at ih ⊢
      rw [narrowedItems, sameItems, Bool.and_eq_true] at hsame
      exact ⟨ih.1 hsame.1, ihrest ih.2 hsame.2⟩
  | @object members hnames h ih =>
    rw [fitsSigned_object]
    change sameMembers (narrowedMembers members) members = true at hsame
    clear h hnames
    induction members with
    | nil => exact List.forall_mem_nil _
    | cons member rest ihrest =>
      rw [List.forall_mem_cons] at ih ⊢
      rw [narrowedMembers, sameMembers, Bool.and_eq_true, Bool.and_eq_true] at hsame
      exact ⟨ih.1 hsame.1.2, ihrest ih.2 hsame.2⟩
  | _ => exact List.forall_mem_nil _

theorem narrowed_eq_iff (h : j.IsDocument) : j.narrowed = j ↔ j.FitsSigned := by
  refine ⟨fun heq => fitsSigned_of_same h ?_, narrowed_of_fitsSigned h⟩
  rw [heq]
  exact same_self h

theorem same_narrowed_iff (h : j.IsDocument) : j.narrowed.same j = true ↔ j.FitsSigned := by
  refine ⟨fitsSigned_of_same h, fun hfits => ?_⟩
  rw [narrowed_of_fitsSigned h hfits]
  exact same_self h

end Json

/-! ### Both directions -/

/-- Data becomes a document, and this one a value that is strictly equal to it, with the names of
each object in order.  A document becomes data, and this a document that is equal to it, or only
equal up to the sign of zeros, exactly if no integer is beyond the signed 64 bits.  The world is
left as it is. -/
theorem Json.converts_back {σ : Type} (host : Host σ) (w : World σ) :
    (∀ v : Value, v.IsData List.Nodup →
      ∃ j : Json, (v.toJson host).runIn w = (.ok j, w) ∧ j.IsDocument ∧
        j.toValue.identical v = true ∧ j.toValue.IsData Sorted) ∧
    ∀ j : Json, j.IsDocument →
      ∃ j' : Json, (j.toValue.toJson host).runIn w = (.ok j', w) ∧
        (j' = j ↔ j.FitsSigned) ∧ (j'.same j = true ↔ j.FitsSigned) := by
  constructor
  · intro v hv
    have hdocument := Value.isDocument_document hv
    refine ⟨v.document, ?_, hdocument, Value.identical_toValue_document hv,
      Json.isData_toValue hdocument⟩
    rw [Value.toJson_eq_pure host hv, Eval.runIn_pure]
  · intro j hj
    refine ⟨j.narrowed, ?_, Json.narrowed_eq_iff hj, Json.same_narrowed_iff hj⟩
    rw [Value.toJson_eq_pure host (Json.isData_toValue hj), Eval.runIn_pure,
      Json.document_toValue hj]

/-- Members out of order come back in order, and an integer beyond the signed 64 bits does not come
back. -/
theorem Json.converts_back_unordered :
    (∃ j : Json,
      ((Value.object [("b", .integer 1), ("a", .array [.null])]).toJson (.constant .null)).runIn
          ⟨(), #[]⟩ = (.ok j, ⟨(), #[]⟩) ∧
        j.toValue.identical (.object [("b", .integer 1), ("a", .array [.null])]) = true) ∧
      ∃ j : Json, ((Json.integer (2 ^ 63)).toValue.toJson (.constant .null)).runIn ⟨(), #[]⟩ =
        (.ok j, ⟨(), #[]⟩) ∧ j ≠ .integer (2 ^ 63) := by
  obtain ⟨hvalues, hdocuments⟩ := Json.converts_back (.constant .null) ⟨(), #[]⟩
  constructor
  · have hdata : Value.IsData List.Nodup (.object [("b", .integer 1), ("a", .array [.null])]) := by
      refine .object (by decide) ?_
      simp only [List.forall_mem_cons, List.not_mem_nil, false_implies, implies_true, and_true]
      exact ⟨.integer 1, .array fun v hv => List.mem_singleton.1 hv ▸ .null⟩
    obtain ⟨j, hrun, -, hidentical, -⟩ := hvalues _ hdata
    exact ⟨j, hrun, hidentical⟩
  · obtain ⟨j, hrun, hsame, -⟩ := hdocuments (.integer (2 ^ 63)) (.integer (by decide) (by decide))
    refine ⟨j, hrun, fun heq => ?_⟩
    have hfits := hsame.1 heq (2 ^ 63) (List.mem_singleton_self _)
    omega

end PathQuery
