/-
Sorting.

The ranking of values is no total order: values of different kinds are not ranked, nor is a NaN, so
that what does not rank below a third value may rank below what does not rank below that.  Short
arrays are sorted by insertion all the same, and longer ones if that does not occur among the keys:

* **`Value.AreRanked`** — values among which it does not occur;
* **`Collection.perm_sortByKey`** — sorting rearranges, if it has a result;
* **`Collection.exists_sortByKey`** — which it has for short arrays and for ranked keys;
* **`Collection.isChain_sortByKey`** — in a short array no key ranks below the one just before it;
* **`Collection.pairwise_sortByKey`** — ranked keys do not rank below any one before them;
* **`Collection.runIn_sort`** — without a selector the elements are their own keys.
-/
import PathQuery.Collection
import PathQuery.Proofs.Evaluation.Runs
import PathQuery.Proofs.Number.Comparison
import PathQuery.Proofs.StableSort.Pivots

namespace PathQuery

/-- The other way round values rank the other way round. -/
theorem Value.rankAgainst_swap (a b : Value) : (a.rankAgainst b).swap = b.rankAgainst a := by
  cases a <;> cases b <;> try rfl
  case number.number m n =>
    rw [rankAgainst, rankAgainst, ← Number.compare?_swap m n]
    cases m.compare? n <;> rfl
  case string.string s t => exact Std.OrientedOrd.eq_swap.symm
  case boolean.boolean s t => exact Nat.compare_swap s.toNat t.toNat

/-- Not to rank below is transitive among these values. -/
def Value.AreRanked (keys : List Value) : Prop :=
  ∀ a ∈ keys, ∀ b ∈ keys, ∀ c ∈ keys,
    b.rankAgainst a ≠ .lt → c.rankAgainst b ≠ .lt → c.rankAgainst a ≠ .lt

namespace Collection

open StableSort (Ranks MayFollow)

variable {entries sorted : List (Value × Value)}

/-! ### The comparison -/

theorem ranksBelow_eq_false_iff {entry other : Value × Value} :
    ranksBelow entry other = false ↔ entry.2.rankAgainst other.2 ≠ .lt :=
  beq_eq_false_iff_ne

theorem ranksBelow_asymm (entry other : Value × Value) (h : ranksBelow entry other = true) :
    ranksBelow other entry = false := by
  rw [ranksBelow_eq_false_iff, ← Value.rankAgainst_swap, eq_of_beq h]
  decide

/-- Ranked keys have ranks. -/
theorem exists_ranks (h : Value.AreRanked (entries.map Prod.snd)) :
    ∃ rank, Ranks rank ranksBelow entries := by
  refine ⟨_, StableSort.ranks_countP (fun a _ b _ => ranksBelow_asymm a b) ?_⟩
  intro a ha b hb c hc
  rw [ranksBelow_eq_false_iff, ranksBelow_eq_false_iff, ranksBelow_eq_false_iff]
  exact h _ (List.mem_map_of_mem ha) _ (List.mem_map_of_mem hb) _ (List.mem_map_of_mem hc)

/-! ### The result -/

/-- Short arrays are sorted by insertion. -/
theorem sortByKey_of_length_le (h : entries.length ≤ 20) :
    sortByKey entries = some (StableSort.insertAll ranksBelow [] entries) := by
  rw [sortByKey, StableSort.sort, if_pos h]

theorem perm_sortByKey (h : sortByKey entries = some sorted) : sorted.Perm entries :=
  StableSort.perm_of_sort h

/-- Only of more than 20 elements with keys that are not ranked there may be no result. -/
theorem exists_sortByKey
    (h : entries.length ≤ 20 ∨ Value.AreRanked (entries.map Prod.snd)) :
    ∃ sorted, sortByKey entries = some sorted := by
  obtain hlength | hkeys := h
  · exact ⟨_, sortByKey_of_length_le hlength⟩
  · obtain ⟨rank, hrank⟩ := exists_ranks hkeys
    exact ⟨_, StableSort.sort_eq_byRank hrank⟩

/-- In a short array no key ranks below the one just before it. -/
theorem isChain_sortByKey (hlength : entries.length ≤ 20) (h : sortByKey entries = some sorted) :
    sorted.IsChain fun earlier later => later.2.rankAgainst earlier.2 ≠ .lt := by
  obtain rfl := Option.some_inj.1 ((sortByKey_of_length_le hlength).symm.trans h)
  exact (StableSort.isChain_insertAll ranksBelow_asymm .nil entries).imp
    fun _ _ => ranksBelow_eq_false_iff.1

/-- Ranked keys do not rank below any one before them. -/
theorem pairwise_sortByKey (hkeys : Value.AreRanked (entries.map Prod.snd))
    (h : sortByKey entries = some sorted) :
    sorted.Pairwise fun earlier later => later.2.rankAgainst earlier.2 ≠ .lt := by
  obtain ⟨rank, hrank⟩ := exists_ranks hkeys
  obtain rfl := Option.some_inj.1 ((StableSort.sort_eq_byRank hrank).symm.trans h)
  refine (StableSort.pairwise_byRank rank entries).imp_of_mem fun {a b} ha hb hle => ?_
  have hmem := (StableSort.perm_byRank rank entries).mem_iff (a := a)
  rw [← ranksBelow_eq_false_iff, hrank b ((StableSort.perm_byRank rank entries).mem_iff.1 hb) a
    (hmem.1 ha), decide_eq_false_iff_not, not_lt]
  exact hle

/-! ### Without a selector -/

/-- Elements sorted by themselves. -/
def sortItems (items : List Value) : Option (List Value) :=
  (sortByKey (items.map fun item => (item, item))).map (·.map Prod.fst)

/-- Every element stands with itself as its key. -/
theorem fst_eq_snd_of_sortByKey {items : List Value}
    (h : sortByKey (items.map fun item => (item, item)) = some entries) :
    ∀ entry ∈ entries, entry.1 = entry.2 := by
  intro entry hentry
  obtain ⟨item, -, rfl⟩ := List.mem_map.1 ((perm_sortByKey h).mem_iff.1 hentry)
  rfl

theorem perm_sortItems {items sorted : List Value} (h : sortItems items = some sorted) :
    sorted.Perm items := by
  obtain ⟨entries, hsort, rfl⟩ := Option.map_eq_some_iff.1 h
  have hperm := (perm_sortByKey hsort).map Prod.fst
  rwa [List.map_map, Function.comp_def, List.map_id'] at hperm

/-- A short array in which no element ranks below the one just before it stays as it is. -/
theorem sortItems_of_isChain {items : List Value} (hlength : items.length ≤ 20)
    (h : items.IsChain fun earlier later => later.rankAgainst earlier ≠ .lt) :
    sortItems items = some items := by
  have hchain : (items.map fun item => (item, item)).IsChain
      fun earlier later => MayFollow ranksBelow later earlier :=
    (List.isChain_map _).2 (h.imp fun _ _ => ranksBelow_eq_false_iff.2)
  rw [sortItems, sortByKey_of_length_le (by rwa [List.length_map]),
    StableSort.insertAll_of_isChain hchain, List.nil_append, Option.map_some, List.map_map,
    Function.comp_def, List.map_id']

/-- Ranked elements are sorted, and none ranks below any one before it. -/
theorem exists_sortItems {items : List Value} (h : Value.AreRanked items) :
    ∃ sorted, sortItems items = some sorted ∧
      sorted.Pairwise fun earlier later => later.rankAgainst earlier ≠ .lt := by
  have hkeys : (items.map fun item => (item, item)).map Prod.snd = items := by
    rw [List.map_map, Function.comp_def, List.map_id']
  obtain ⟨entries, hsort⟩ := exists_sortByKey (.inr (hkeys.symm ▸ h))
  have hkey := fst_eq_snd_of_sortByKey hsort
  refine ⟨entries.map Prod.fst, by rw [sortItems, hsort, Option.map_some], List.pairwise_map.2 ?_⟩
  refine (pairwise_sortByKey (hkeys.symm ▸ h) hsort).imp_of_mem fun hearlier hlater hfollow => ?_
  rw [hkey _ hlater, hkey _ hearlier]
  exact hfollow

theorem runIn_sort {σ : Type} (select : Select σ) (items : List Value) (w : World σ) :
    (sort select items []).runIn w =
      match sortItems items with
      | some sorted => (.ok (.array sorted), w)
      | none => (.error (.typeFault .noTotalOrder), w) := by
  have hkeys : items.mapM (selected select "sort" []) = pure items := by
    rw [show selected select "sort" [] = fun item => pure (id item) from rfl, List.mapM_pure,
      List.map_id]
  have hzip : items.zip items = items.map fun item => (item, item) := by
    have hboth := List.zip_map' (f := id) (g := id) (l := items)
    rwa [List.map_id] at hboth
  rw [sort, hkeys, pure_bind, hzip, sortItems]
  cases sortByKey (items.map fun item => (item, item)) <;> rfl

end Collection

end PathQuery
