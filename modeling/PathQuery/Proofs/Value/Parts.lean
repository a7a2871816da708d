/-
The values right inside a value, and what holds throughout it.

* **`Value.parts`** — the elements of an array and the values of an object's members;
* **`Value.partsInduction`** — what holds of a value once it holds of its parts, holds of all;
* **`Value.throughout`** — whether a condition holds of a value and of all values inside it;
* **`Value.hasDistinctNames`, `Value.hasNoNaN`** — no object repeats a name, no number is a NaN.

Design notes: objects are lists of pairs, so that distinct names are a condition.  Objects built by
`Fields.insert` and those of documents satisfy it.
-/
import PathQuery.Proofs.Fields
import PathQuery.Proofs.Number.Comparison
import PathQuery.Value

namespace PathQuery.Value

open Fields (names)

/-- The values right inside a value. -/
def parts : Value → List Value
  | .array items => items
  | .object fields => fields.map Prod.snd
  | _ => []

/-- Induction over the values inside a value. -/
@[elab_as_elim]
theorem partsInduction {motive : Value → Prop}
    (whole : ∀ v : Value, (∀ u ∈ v.parts, motive u) → motive v) (v : Value) : motive v :=
  @Value.rec motive (fun items => ∀ u ∈ items, motive u)
    (fun fields => ∀ u ∈ fields.map Prod.snd, motive u) (fun field => motive field.2)
    (whole .null fun _ h => absurd h List.not_mem_nil)
    (fun b => whole (.boolean b) fun _ h => absurd h List.not_mem_nil)
    (fun n => whole (.number n) fun _ h => absurd h List.not_mem_nil)
    (fun s => whole (.string s) fun _ h => absurd h List.not_mem_nil)
    (fun items => whole (.array items)) (fun fields => whole (.object fields))
    (fun o => whole (.host o) fun _ h => absurd h List.not_mem_nil)
    (fun f => whole (.function f) fun _ h => absurd h List.not_mem_nil)
    (fun l => whole (.deferred l) fun _ h => absurd h List.not_mem_nil)
    (fun _ h => absurd h List.not_mem_nil)
    (fun _ _ hfirst hrest => List.forall_mem_cons.2 ⟨hfirst, hrest⟩)
    (fun _ h => absurd h List.not_mem_nil)
    (fun _ _ hfirst hrest => List.forall_mem_cons.2 ⟨hfirst, hrest⟩)
    (fun _ _ hvalue => hvalue) v

/-! ### Conditions throughout a value -/

mutual

/-- Whether a value and all values inside it satisfy a condition. -/
def throughout (p : Value → Bool) : Value → Bool
  | .array items => p (.array items) && throughoutItems p items
  | .object fields => p (.object fields) && throughoutFields p fields
  | v => p v

def throughoutItems (p : Value → Bool) : List Value → Bool
  | [] => true
  | item :: rest => throughout p item && throughoutItems p rest

def throughoutFields (p : Value → Bool) : List (String × Value) → Bool
  | [] => true
  | (_, value) :: rest => throughout p value && throughoutFields p rest

end

variable {p : Value → Bool} {v : Value}

theorem throughoutItems_iff {items : List Value} :
    throughoutItems p items = true ↔ ∀ u ∈ items, u.throughout p = true := by
  induction items with
  | nil => simp [throughoutItems]
  | cons item rest ih => simp [throughoutItems, ih]

theorem throughoutFields_iff {fields : List (String × Value)} :
    throughoutFields p fields = true ↔ ∀ u ∈ fields.map Prod.snd, u.throughout p = true := by
  induction fields with
  | nil => simp [throughoutFields]
  | cons field rest ih =>
    rw [throughoutFields, Bool.and_eq_true, ih, List.map_cons, List.forall_mem_cons]

theorem throughout_iff :
    v.throughout p = true ↔ p v = true ∧ ∀ u ∈ v.parts, u.throughout p = true := by
  cases v with
  | array items => rw [throughout, Bool.and_eq_true, throughoutItems_iff, parts]
  | object fields => rw [throughout, Bool.and_eq_true, throughoutFields_iff, parts]
  | _ => simp [throughout, parts]

/-- Whether a value is the float that is no number. -/
def isNaN : Value → Bool
  | .number n => n.isNaN
  | _ => false

/-- Whether no number in a value is a NaN. -/
def hasNoNaN (v : Value) : Bool := v.throughout fun u => !u.isNaN

/-- Whether no object in a value has two members of one name. -/
def hasDistinctNames (v : Value) : Bool :=
  v.throughout fun
    | .object fields => decide (names fields).Nodup
    | _ => true

theorem nodup_names {fields : List (String × Value)}
    (h : (Value.object fields).hasDistinctNames = true) : (names fields).Nodup :=
  of_decide_eq_true (throughout_iff.1 h).1

theorem hasDistinctNames_of_mem_parts (h : v.hasDistinctNames = true) {u : Value}
    (hu : u ∈ v.parts) : u.hasDistinctNames = true :=
  (throughout_iff.1 h).2 u hu

end PathQuery.Value
