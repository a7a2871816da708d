/-
Sorting by keys of any kind.

* **`Collection.filter_sortByKey`** — elements with one key keep their order;
* **`Collection.sortItems_sortItems`** — a short array that is in order stays as it is;
* **`Value.areRanked_of_areOfOneKind`** — keys that are all integers, all strings or all booleans are
  ranked;
* **`Collection.rearranges_sort`** — the method, with a selector or without one;
* **`Collection.exists_sort_broken_off`** — arrays of more elements, with keys of two kinds, one of
  which has no result, and one whose result is not in order.

Design notes: of keys of mixed kinds in a short array only neighbours are known to be in order.  In
longer arrays not even those are.
-/
import Mathlib
import PathQuery.Proofs.Collection.Sort
import PathQuery.Proofs.Evaluation.Sequences
import PathQuery.Proofs.Value.Equality

namespace PathQuery

namespace Value

/-- Values that are equal to a third one do not rank below each other. -/
theorem rankAgainst_ne_lt_of_identical {a b key : Value} (ha : a.identical key = true)
    (hb : b.identical key = true) : a.rankAgainst b ≠ .lt := by
  cases areIdentical_of_identical ha with
  | @number m k hm =>
    cases areIdentical_of_identical hb with
    | @number n _ hn =>
      have hmn : m.eqv n = true :=
        Number.eqv_of_identical (Number.identical_trans hm ((Number.identical_comm k n).trans hn))
      rw [rankAgainst, beq_iff_eq.1 (show (m.compare? n == some .eq) = true from hmn)]
      decide
  | string s =>
    cases areIdentical_of_identical hb with
    | string => rw [rankAgainst, Std.compare_self]; decide
  | boolean t =>
    cases areIdentical_of_identical hb with
    | boolean => rw [rankAgainst, Std.compare_self]; decide
  | _ =>
    intro hlt
    cases hlt

/-! ### Keys of one kind -/

/-- Integers, strings and booleans in their order: by value, by code points, false before true. -/
inductive InOrder : Value → Value → Prop where
  | integers {m n : Int64} (h : m.toInt ≤ n.toInt) :
      InOrder (.number (.integer m)) (.number (.integer n))
  | strings {s t : String} (h : s ≤ t) : InOrder (.string s) (.string t)
  | booleans {a b : Bool} (h : a ≤ b) : InOrder (.boolean a) (.boolean b)

instance : IsTrans Value InOrder where
  trans _ _ _
    | .integers h, .integers h' => .integers (Int.le_trans h h')
    | .strings h, .strings h' => .strings (String.le_trans h h')
    | .booleans h, .booleans h' => .booleans (Bool.le_trans h h')

/-- All of them are integers, all are strings, or all are booleans. -/
def AreOfOneKind (keys : List Value) : Prop :=
  (∀ key ∈ keys, ∃ n, key = .number (.integer n)) ∨ (∀ key ∈ keys, ∃ s, key = .string s) ∨
    ∀ key ∈ keys, ∃ b, key = .boolean b

variable {keys : List Value} {earlier later : Value}

/-- Of such keys, those that do not rank below others are in order behind them. -/
theorem rankAgainst_ne_lt_iff_inOrder (hkeys : AreOfOneKind keys) (hearlier : earlier ∈ keys)
    (hlater : later ∈ keys) : later.rankAgainst earlier ≠ .lt ↔ InOrder earlier later := by
  obtain hkeys | hkeys | hkeys := hkeys <;> obtain ⟨a, rfl⟩ := hkeys earlier hearlier <;>
    obtain ⟨b, rfl⟩ := hkeys later hlater
  · refine ⟨fun h => .integers (Int.not_lt.1 fun hlt => h ?_), fun | .integers h => fun hlt => ?_⟩
    · exact Int.compare_eq_lt.2 hlt
    · exact Int.not_lt.2 h (Int.compare_eq_lt.1 hlt)
  · refine ⟨fun h => .strings (String.not_lt.1 fun hlt => h ?_), fun | .strings h => fun hlt => ?_⟩
    · exact if_pos hlt
    · have hcompare : (if b < a then Ordering.lt else if b = a then .eq else .gt) = .lt := hlt
      rw [if_neg (String.not_lt.2 h)] at hcompare
      split at hcompare <;> cases hcompare
  · refine ⟨fun h => .booleans ?_, fun | .booleans h => ?_⟩ <;> revert h <;> cases a <;>
      cases b <;> decide

theorem areRanked_of_areOfOneKind (hkeys : AreOfOneKind keys) : AreRanked keys := by
  intro a ha b hb c hc hab hbc
  rw [rankAgainst_ne_lt_iff_inOrder hkeys ha hb] at hab
  rw [rankAgainst_ne_lt_iff_inOrder hkeys hb hc] at hbc
  rw [rankAgainst_ne_lt_iff_inOrder hkeys ha hc]
  exact IsTrans.trans _ _ _ hab hbc

end Value

namespace Collection

variable {entries sorted : List (Value × Value)}

/-! ### Elements with one key -/

theorem ranksBelow_of_identical {entry other : Value × Value} {key : Value}
    (hentry : entry.2.identical key = true) (hother : other.2.identical key = true) :
    ranksBelow entry other = false :=
  ranksBelow_eq_false_iff.2 (Value.rankAgainst_ne_lt_of_identical hentry hother)

/-- Elements with one key keep their order, in short arrays and for ranked keys. -/
theorem filter_sortByKey
    (hentries : entries.length ≤ 20 ∨ Value.AreRanked (entries.map Prod.snd))
    (h : sortByKey entries = some sorted) (key : Value) :
    sorted.filter (·.2.identical key) = entries.filter (·.2.identical key) := by
  obtain hlength | hkeys := hentries
  · obtain rfl := Option.some_inj.1 ((sortByKey_of_length_le hlength).symm.trans h)
    exact StableSort.filter_insertAll fun _ _ _ _ => ranksBelow_of_identical
  · obtain ⟨rank, hrank⟩ := exists_ranks hkeys
    obtain rfl := Option.some_inj.1 ((StableSort.sort_eq_byRank hrank).symm.trans h)
    refine StableSort.filter_byRank_of_le fun entry hentry other hother hkey hkey' => ?_
    have hnot := ranksBelow_of_identical hkey' hkey
    rwa [hrank other hother entry hentry, decide_eq_false_iff_not, not_lt] at hnot

/-! ### What is in order -/

theorem isChain_sortItems {items sorted : List Value} (hlength : items.length ≤ 20)
    (h : sortItems items = some sorted) :
    sorted.IsChain fun earlier later => later.rankAgainst earlier ≠ .lt := by
  obtain ⟨entries, hsort, rfl⟩ := Option.map_eq_some_iff.1 h
  rw [List.isChain_map]
  refine (isChain_sortByKey (by rwa [List.length_map]) hsort).imp_of_mem_imp
    fun earlier later hearlier hlater hfollow => ?_
  have hkey := fst_eq_snd_of_sortByKey hsort
  rw [hkey later hlater, hkey earlier hearlier]
  exact hfollow

/-- Sorting a short array without a selector changes nothing the second time. -/
theorem sortItems_sortItems {items sorted : List Value} (hlength : items.length ≤ 20)
    (h : sortItems items = some sorted) : sortItems sorted = some sorted :=
  sortItems_of_isChain ((perm_sortItems h).length_eq.trans_le hlength) (isChain_sortItems hlength h)

/-! ### The method -/

/-- Keys of one kind do not decrease. -/
theorem pairwise_inOrder (hkind : Value.AreOfOneKind (entries.map Prod.snd))
    (h : sortByKey entries = some sorted) :
    sorted.Pairwise fun earlier later => earlier.2.InOrder later.2 := by
  have hmem : ∀ entry ∈ sorted, entry.2 ∈ entries.map Prod.snd := fun entry hentry =>
    List.mem_map_of_mem ((perm_sortByKey h).mem_iff.1 hentry)
  exact (pairwise_sortByKey (Value.areRanked_of_areOfOneKind hkind) h).imp_of_mem
    fun hearlier hlater hfollow =>
      (Value.rankAgainst_ne_lt_iff_inOrder hkind (hmem _ hearlier) (hmem _ hlater)).1 hfollow

variable {σ : Type} {select : Select σ} {items args keys : List Value} {w w' : World σ}

/-- With the keys at hand there is nothing more to evaluate. -/
theorem runIn_sort_of_keys
    (hkeys : (items.mapM (selected select "sort" args)).runIn w = (.ok keys, w')) :
    (sort select items args).runIn w =
      match sortByKey (items.zip keys) with
      | some entries => (.ok (.array (entries.map Prod.fst)), w')
      | none => (.error (.typeFault .noTotalOrder), w') := by
  rw [sort, Eval.runIn_bind_of_ok hkeys]
  cases sortByKey (items.zip keys) <;> rfl

/-- Where the keys of the elements can be computed, the method gives the elements rearranged.  It is
broken off at most for more than 20 elements with keys that are not ranked, and not if those are all
integers, all strings or all booleans.  Otherwise elements with one key keep their order; ranked keys
do not rank below any one before them, and keys of one of those kinds do not decrease.  Of at most 20
elements with keys of any kinds none ranks below the one just before it, and what the method gives
without a selector it gives again. -/
theorem rearranges_sort (select : Select σ) (items args keys : List Value) (w w' : World σ)
    (hkeys : (items.mapM (selected select "sort" args)).runIn w = (.ok keys, w')) :
    ∃ run : Eval σ Value, arrayMethod? select "sort" items args = some run ∧
      ((∃ entries : List (Value × Value),
        run.runIn w = (.ok (.array (entries.map Prod.fst)), w') ∧
        (entries.Perm (items.zip keys) ∧ (entries.map Prod.fst).Perm items) ∧
        (items.length ≤ 20 ∨ Value.AreRanked keys ∨ Value.AreOfOneKind keys →
          ∀ key : Value, entries.filter (·.2.identical key) =
            (items.zip keys).filter (·.2.identical key)) ∧
        (Value.AreRanked keys →
          entries.Pairwise fun earlier later => later.2.rankAgainst earlier.2 ≠ .lt) ∧
        (Value.AreOfOneKind keys →
          entries.Pairwise fun earlier later => earlier.2.InOrder later.2) ∧
        (items.length ≤ 20 →
          (entries.IsChain fun earlier later => later.2.rankAgainst earlier.2 ≠ .lt) ∧
          (args = [] → ∃ again : Eval σ Value,
            arrayMethod? select "sort" (entries.map Prod.fst) [] = some again ∧
            again.runIn w' = (.ok (.array (entries.map Prod.fst)), w')))) ∨
      (20 < items.length ∧ ¬ Value.AreRanked keys ∧ ¬ Value.AreOfOneKind keys ∧
        run.runIn w = (.error (.typeFault .noTotalOrder), w'))) := by
  have hlength : keys.length = items.length := Eval.length_eq_of_mapM hkeys
  have hitems : (items.zip keys).map Prod.fst = items := List.map_fst_zip (Nat.le_of_eq hlength.symm)
  have hvalues : (items.zip keys).map Prod.snd = keys := List.map_snd_zip (Nat.le_of_eq hlength)
  have hentries : (items.zip keys).length = items.length := by
    rw [List.length_zip, hlength, Nat.min_self]
  have hrun := runIn_sort_of_keys hkeys
  refine ⟨sort select items args, rfl, ?_⟩
  cases hsort : sortByKey (items.zip keys) with
  | none =>
    rw [hsort] at hrun
    right
    have hnot : ¬ ((items.zip keys).length ≤ 20 ∨ Value.AreRanked ((items.zip keys).map Prod.snd)) :=
      fun h => by
        obtain ⟨sorted, hsorted⟩ := exists_sortByKey h
        exact nomatch hsort.symm.trans hsorted
    rw [hentries, hvalues, not_or, Nat.not_le] at hnot
    exact ⟨hnot.1, hnot.2, fun hkind => hnot.2 (Value.areRanked_of_areOfOneKind hkind), hrun⟩
  | some entries =>
    rw [hsort] at hrun
    left
    refine ⟨entries, hrun, ⟨perm_sortByKey hsort, ?perm⟩, fun h => ?stable, fun hranked => ?ranked,
      fun hkind => ?order, fun hshort => ⟨?chain, ?again⟩⟩
    case perm =>
      have hperm := (perm_sortByKey hsort).map Prod.fst
      rwa [hitems] at hperm
    case stable =>
      refine filter_sortByKey ?_ hsort
      rw [hentries, hvalues]
      exact h.imp_right fun h => h.elim id Value.areRanked_of_areOfOneKind
    case ranked => exact pairwise_sortByKey (hvalues.symm ▸ hranked) hsort
    case order => exact pairwise_inOrder (hvalues.symm ▸ hkind) hsort
    case chain => exact isChain_sortByKey (hentries.symm ▸ hshort) hsort
    case again =>
      rintro rfl
      -- Without a selector the first sorting is one of the elements by themselves.
      have hsame := hrun.symm.trans (runIn_sort select items w)
      refine ⟨sort select _ [], rfl, ?_⟩
      cases hsorted : sortItems items with
      | none =>
        rw [hsorted] at hsame
        exact nomatch congrArg Prod.fst hsame
      | some sorted =>
        rw [hsorted] at hsame
        have hvalue := Value.array.inj (Except.ok.inj (congrArg Prod.fst hsame))
        rw [hvalue, runIn_sort, sortItems_sortItems hshort hsorted]

/-- Three objects sorted by a member, the first and the last of which have the same. -/
theorem rearranges_sort_by_member :
    let item (rank : Int64) (name : String) : Value :=
      .object [("name", .string name), ("rank", .integer rank)]
    let items := [item 2 "a", item 1 "b", item 2 "c"]
    let select : Select Unit :=
      PathQuery.select (Host.constant .null) (fun _ _ _ => return .null) default
    let keys : List Value := [.integer 2, .integer 1, .integer 2]
    (items.mapM (selected select "sort" [.string "rank"])).runIn ⟨(), #[]⟩ = (.ok keys, ⟨(), #[]⟩) ∧
      ∃ (run : Eval Unit Value) (entries : List (Value × Value)),
        arrayMethod? select "sort" items [.string "rank"] = some run ∧
        run.runIn ⟨(), #[]⟩ = (.ok (.array (entries.map Prod.fst)), ⟨(), #[]⟩) ∧
        (entries.map Prod.fst).Perm items ∧
        (entries.filter (·.2.identical (.integer 2))).map Prod.fst = [item 2 "a", item 2 "c"] ∧
        entries.Pairwise fun earlier later => earlier.2.InOrder later.2 := by
  intro item items select keys
  have hkeys : (items.mapM (selected select "sort" [.string "rank"])).runIn ⟨(), #[]⟩ =
      (.ok keys, ⟨(), #[]⟩) := rfl
  have hkind : Value.AreOfOneKind keys := .inl fun key hkey => by
    simp only [keys, List.mem_cons, List.not_mem_nil, or_false] at hkey
    obtain rfl | rfl | rfl := hkey
    · exact ⟨2, rfl⟩
    · exact ⟨1, rfl⟩
    · exact ⟨2, rfl⟩
  obtain ⟨run, hmethod, ⟨entries, hrun, ⟨-, hperm⟩, hstable, -, horder, -⟩ | ⟨hlong, -⟩⟩ :=
    rearranges_sort select items [.string "rank"] keys ⟨(), #[]⟩ ⟨(), #[]⟩ hkeys
  · refine ⟨hkeys, run, entries, hmethod, hrun, hperm, ?_, horder hkind⟩
    rw [hstable (.inr (.inr hkind))]
    rfl
  · exact absurd hlong (by decide)

/-- An array of nulls but for integers at some places. -/
def sparseArray (length : Nat) (integers : List (Nat × Int64)) : List Value :=
  (List.range length).map fun place => (integers.lookup place).elim .null .integer

/-- Elements that fall into two runs, neither of which is in order, are sorted by pivots. -/
theorem sortItems_of_two_runs {items sorted : List Value} {n : Nat} (length : Nat)
    (hitems : items.length = length) (hlong : 2 * StableSort.shortLength < length)
    (hfits : length ≤ StableSort.scratchLength length)
    (hruns : StableSort.runs ranksBelow (StableSort.minRunLength length) false
        (items.map fun item => (item, item)) =
      some [⟨(items.map fun item => (item, item)).take n, false⟩,
        ⟨(items.map fun item => (item, item)).drop n, false⟩])
    (hsort : StableSort.quicksort ranksBelow (StableSort.scratchLength length) (2 * length.log2) none
        (items.map fun item => (item, item)) =
      some (sorted.map fun item => (item, item))) :
    sortItems items = some sorted := by
  subst hitems
  have hpivots := StableSort.sort_of_two_runs ranksBelow (items.map fun item => (item, item))
    (n := n)
  rw [List.length_map] at hpivots
  rw [sortItems, sortByKey, hpivots hlong hfits hruns, hsort, Option.map_some, List.map_map,
    Function.comp_def, List.map_id']

/-- Of 21 elements, all but one of which descend, nothing is given.  Of 65 elements, all but five of
which are null, most stay where they are: the median of some of them is null, and none ranks below
that or above it.  The second time it is a number, and the array is rearranged once more. -/
theorem exists_sort_broken_off :
    let descending : List Value :=
      (List.range 21).map fun k => if k = 5 then .null else .integer (.ofNat (21 - k))
    let sparse := sparseArray 65 [(3, 3), (4, 2), (20, 1), (23, 3), (36, 2)]
    let once := sparseArray 65 [(0, 1), (4, 3), (5, 2), (23, 3), (36, 2)]
    let twice := sparseArray 65 [(0, 1), (61, 2), (62, 2), (63, 3), (64, 3)]
    once ≠ twice ∧
    ∀ {σ : Type} (select : Select σ) (w : World σ),
      (∃ run, arrayMethod? select "sort" descending [] = some run ∧
        run.runIn w = (.error (.typeFault .noTotalOrder), w)) ∧
      (∃ run, arrayMethod? select "sort" sparse [] = some run ∧
        run.runIn w = (.ok (.array once), w)) ∧
      ∃ run, arrayMethod? select "sort" once [] = some run ∧
        run.runIn w = (.ok (.array twice), w) := by
  intro descending sparse once twice
  have hdescending : sortItems descending = none := by
    have hsort : sortByKey (descending.map fun item => (item, item)) = none := by cbv
    rw [sortItems, hsort, Option.map_none]
  have hsparse : sortItems sparse = some once :=
    sortItems_of_two_runs (n := 33) 65 rfl (by decide) (by decide) (by cbv) (by cbv)
  have honce : sortItems once = some twice :=
    sortItems_of_two_runs (n := 33) 65 rfl (by decide) (by decide) (by cbv) (by cbv)
  have hchanged : once[4]?.map Value.isNull ≠ twice[4]?.map Value.isNull := by decide
  refine ⟨fun hsame => hchanged (by rw [hsame]), fun select w => ⟨?_, ?_, ?_⟩⟩
  · exact ⟨sort select descending [], rfl, by rw [runIn_sort, hdescending]⟩
  · exact ⟨sort select sparse [], rfl, by rw [runIn_sort, hsparse]⟩
  · exact ⟨sort select once [], rfl, by rw [runIn_sort, honce]⟩

end Collection

end PathQuery
