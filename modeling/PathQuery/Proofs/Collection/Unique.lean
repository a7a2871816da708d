/-
Elements without repetitions.

* **`Collection.any_unique`** — an element is identical to one that is kept exactly if it is to any;
* **`Collection.unique_eq`** — so what is kept are the first occurrences;
* **`Collection.unique_of_pairwise`** — where there are no repetitions nothing changes;
* **`Collection.unique_keeps_first`** — the method.

Design notes: an element is compared with those kept before it, from their side.  Elements between
which there is an equality that fails in the other direction do not exist, since no object has two
members of one name; only there symmetry is used.
-/
import Mathlib.Data.List.Induction
import PathQuery.Proofs.Evaluation.Runs
import PathQuery.Proofs.Value.Equality

namespace PathQuery.Collection

variable {items : List Value} {v : Value} {entry : Value × Nat}

/-- The elements, with their places, that no element before them is identical to. -/
def firstOccurrences (items : List Value) : List (Value × Nat) :=
  items.zipIdx.filter fun entry => !(items.take entry.2).any (·.identical entry.1)

/-! ### One element more -/

theorem unique_append_singleton (as : List Value) (a : Value) : unique (as ++ [a]) =
    if (unique as).any (·.identical a) then unique as else unique as ++ [a] := by
  rw [unique, List.foldl_append]
  rfl

/-- Where an element is identical to one that is not kept, that one is identical to a kept one. -/
theorem any_unique (items : List Value) (v : Value) :
    (unique items).any (·.identical v) = items.any (·.identical v) := by
  induction items using List.reverseRecOn with
  | nil => rfl
  | append_singleton as a ih =>
    rw [unique_append_singleton, List.any_append, List.any_cons, List.any_nil, Bool.or_false]
    split
    case isTrue hkept =>
      rw [ih]
      cases hav : a.identical v with
      | false => rw [Bool.or_false]
      | true =>
        obtain ⟨u, hu, hua⟩ := List.any_eq_true.1 hkept
        rw [Bool.or_true, ← ih]
        exact List.any_eq_true.2 ⟨u, hu, Value.identical_trans hua hav⟩
    case isFalse => rw [List.any_append, List.any_cons, List.any_nil, Bool.or_false, ih]

theorem firstOccurrences_append_singleton (as : List Value) (a : Value) :
    firstOccurrences (as ++ [a]) =
      if as.any (·.identical a) then firstOccurrences as
      else firstOccurrences as ++ [(a, as.length)] := by
  have hbefore : as.zipIdx.filter (fun entry =>
      !((as ++ [a]).take entry.2).any (·.identical entry.1)) = firstOccurrences as := by
    refine List.filter_congr fun entry hentry => ?_
    obtain ⟨hlt, -⟩ := List.getElem?_eq_some_iff.1 (List.mem_zipIdx_iff_getElem?.1 hentry)
    rw [List.take_append_of_le_length (Nat.le_of_lt hlt)]
  rw [firstOccurrences, List.zipIdx_append, List.filter_append, hbefore]
  change _ ++ List.filter _ [(a, 0 + as.length)] = _
  rw [Nat.zero_add, List.filter_singleton, List.take_left]
  cases as.any (·.identical a) <;> simp

theorem unique_eq (items : List Value) : unique items = (firstOccurrences items).map (·.1) := by
  induction items using List.reverseRecOn with
  | nil => rfl
  | append_singleton as a ih =>
    rw [unique_append_singleton, firstOccurrences_append_singleton, any_unique, ih]
    split
    · rfl
    · rw [List.map_append, List.map_singleton]

/-! ### First occurrences -/

theorem mem_firstOccurrences_iff : entry ∈ firstOccurrences items ↔
    items[entry.2]? = some entry.1 ∧ (items.take entry.2).any (·.identical entry.1) = false := by
  rw [firstOccurrences, List.mem_filter, List.mem_zipIdx_iff_getElem?, Bool.not_eq_true']

theorem firstOccurrences_sublist (items : List Value) :
    ((firstOccurrences items).map (·.1)).Sublist items := by
  have hsublist : ((firstOccurrences items).map (·.1)).Sublist (items.zipIdx.map (·.1)) :=
    List.filter_sublist.map _
  rwa [List.zipIdx_map_fst] at hsublist

/-- What is a first occurrence among the first elements is one among all. -/
theorem mem_firstOccurrences_of_take {n : Nat} (h : entry ∈ firstOccurrences (items.take n)) :
    entry.2 < n ∧ entry ∈ firstOccurrences items := by
  obtain ⟨hget, hnew⟩ := mem_firstOccurrences_iff.1 h
  rw [List.getElem?_take] at hget
  split at hget
  case isTrue hlt =>
    rw [List.take_take, Nat.min_eq_left (Nat.le_of_lt hlt)] at hnew
    exact ⟨hlt, mem_firstOccurrences_iff.2 ⟨hget, hnew⟩⟩
  case isFalse => cases hget

/-- What is dropped is identical to an element that is kept before it. -/
theorem exists_mem_firstOccurrences (hentry : entry ∈ items.zipIdx)
    (hdropped : entry ∉ firstOccurrences items) : ∃ earlier ∈ firstOccurrences items,
      earlier.2 < entry.2 ∧ earlier.1.identical entry.1 = true := by
  have hrepeated : (items.take entry.2).any (·.identical entry.1) = true := by
    rw [mem_firstOccurrences_iff, not_and, Bool.not_eq_false] at hdropped
    exact hdropped (List.mem_zipIdx_iff_getElem?.1 hentry)
  rw [← any_unique, unique_eq, List.any_map] at hrepeated
  obtain ⟨earlier, hearlier, hidentical⟩ := List.any_eq_true.1 hrepeated
  obtain ⟨hlt, hmem⟩ := mem_firstOccurrences_of_take hearlier
  exact ⟨earlier, hmem, hlt, hidentical⟩

theorem pairwise_unique (items : List Value) :
    (unique items).Pairwise fun u v => u.identical v = false := by
  induction items using List.reverseRecOn with
  | nil => exact .nil
  | append_singleton as a ih =>
    rw [unique_append_singleton]
    split
    case isTrue => exact ih
    case isFalse hnew =>
      refine List.pairwise_append.2 ⟨ih, List.pairwise_singleton .., fun u hu v hv => ?_⟩
      obtain rfl := List.mem_singleton.1 hv
      exact Bool.eq_false_iff.2 fun h => hnew (List.any_eq_true.2 ⟨u, hu, h⟩)

/-- Where no element is identical to a later one all are kept. -/
theorem unique_of_pairwise (h : items.Pairwise fun u v => u.identical v = false) :
    unique items = items := by
  induction items using List.reverseRecOn with
  | nil => rfl
  | append_singleton as a ih =>
    obtain ⟨has, -, ha⟩ := List.pairwise_append.1 h
    have hnew : as.any (·.identical a) = false :=
      List.any_eq_false.2 fun u hu => Bool.eq_false_iff.1 (ha u hu a (List.mem_singleton_self a))
    rw [unique_append_singleton, any_unique, hnew, ih has]
    rfl

/-- A value with a NaN in it is not identical to any. -/
theorem identical_eq_false_of_hasNoNaN {u : Value} (hu : u.hasDistinctNames = true)
    (hv : v.hasDistinctNames = true) (hnan : v.hasNoNaN = false) : u.identical v = false := by
  rw [Bool.eq_false_iff]
  intro h
  have hself : v.identical v = true := Value.identical_trans (Value.identical_symm hu h) h
  rw [Value.isMemberwise_identical.self_eq (fun _ => Value.identical_self_of_flat) hv, hnan] at hself
  cases hself

/-! ### The method -/

/-- Of elements that are identical the first one is kept: what is kept are the elements that none
before them is identical to, in their order.  What is dropped is identical to an element kept before
it, no two kept elements are identical, and all elements with a NaN in them are kept.  Done once
more, the method changes nothing. -/
theorem unique_keeps_first {σ : Type} (host : Host σ) (below : Evaluator σ) (select : Select σ)
    (args : Option (List Value)) {items : List Value}
    (hnames : ∀ v ∈ items, v.hasDistinctNames = true) (w : World σ) :
    let first := firstOccurrences items
    let kept := first.map (·.1)
    let run array := (access host below select (.array array) "unique" args).runIn w
    run items = (.ok (.array kept), w) ∧ kept.Sublist items ∧
      (∀ entry ∈ items.zipIdx, entry ∉ first → ∃ earlier ∈ first,
        earlier.2 < entry.2 ∧ earlier.1.identical entry.1 = true) ∧
      (kept.Pairwise fun u v => u.identical v = false ∧ v.identical u = false) ∧
      (∀ entry ∈ items.zipIdx, entry.1.hasNoNaN = false → entry ∈ first) ∧
      run kept = (.ok (.array kept), w) := by
  intro first kept run
  have hrun : ∀ array, run array = (.ok (.array (unique array)), w) := fun _ => rfl
  have hkept : unique items = kept := unique_eq items
  have hpairwise : kept.Pairwise fun u v => u.identical v = false := hkept ▸ pairwise_unique items
  have hsublist : kept.Sublist items := firstOccurrences_sublist items
  refine ⟨by rw [hrun, hkept], hsublist, fun _ => exists_mem_firstOccurrences, ?_,
    fun entry hentry hnan => ?_, by rw [hrun, unique_of_pairwise hpairwise]⟩
  · refine hpairwise.imp_of_mem fun _ hv huv => ⟨huv, Bool.eq_false_iff.2 fun hvu => ?_⟩
    rw [Value.identical_symm (hnames _ (hsublist.subset hv)) hvu] at huv
    cases huv
  · have hget := List.mem_zipIdx_iff_getElem?.1 hentry
    refine mem_firstOccurrences_iff.2 ⟨hget, List.any_eq_false.2 fun u hu => ?_⟩
    rw [identical_eq_false_of_hasNoNaN (hnames u (List.mem_of_mem_take hu))
      (hnames _ (List.mem_of_getElem? hget)) hnan]
    exact Bool.false_ne_true

/-- Objects with their members in another order are identical, an integer and a float are not, and
a NaN is not identical to itself. -/
theorem unique_keeps_first_of_mixed :
    let nan : Value := .float ⟨0x7ff8000000000000⟩
    let one : Value := .float ⟨0x3ff0000000000000⟩
    let v : Value := .object [("x", .integer 1), ("y", .null)]
    let v' : Value := .object [("y", .null), ("x", .integer 1)]
    let items := [.integer 1, nan, v, one, v', nan, .integer 1]
    let kept := [.integer 1, nan, v, one, nan]
    let run array := (access (Host.constant .null) (fun _ _ _ => return .null) noSelection
      (.array array) "unique" none).runIn ⟨(), #[]⟩
    run items = (.ok (.array kept), ⟨(), #[]⟩) ∧ (nan, 5) ∈ firstOccurrences items ∧
      v.identical v' = true ∧ run kept = (.ok (.array kept), ⟨(), #[]⟩) := by
  intro nan one v v' items kept run
  have hnames : ∀ v ∈ items, v.hasDistinctNames = true := by
    rw [← List.all_eq_true]
    decide
  obtain ⟨hrun, -, -, -, hnan, hagain⟩ := unique_keeps_first (Host.constant .null)
    (fun _ _ _ => return .null) noSelection none hnames ⟨(), #[]⟩
  have hkept : (firstOccurrences items).map (·.1) = kept := rfl
  rw [hkept] at hrun hagain
  exact ⟨hrun, hnan (nan, 5) (List.mem_zipIdx_iff_getElem?.2 rfl) (by decide), by decide, hagain⟩

end PathQuery.Collection
