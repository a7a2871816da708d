/-
Sorting by pivots.

* **`StableSort.byRank_partition`** — elements below a bound in their order, and then the others;
* **`StableSort.sorts_quicksort`** — lists are sorted by pivots, whichever they are;
* **`StableSort.sorts_sort`** — so all lists are;
* **`StableSort.sort_eq_byRank`, `StableSort.perm_of_sort`** — by ranks, and by any comparison.
-/
import PathQuery.Proofs.StableSort.Runs

namespace PathQuery.StableSort

variable {α : Type} {less : α → α → Bool} {rank : α → ℤ} {all as before behind : List α} {pivot : α}

/-! ### Partitions -/

/-- Elements that are below all others come first. -/
theorem byRank_partition {p : α → Bool}
    (h : ∀ a ∈ as, ∀ b ∈ as, p a = true → p b = false → rank a < rank b) :
    byRank rank as = byRank rank (as.filter p) ++ byRank rank (as.filter (!p ·)) := by
  refine (eq_byRank (List.pairwise_append.2 ⟨pairwise_byRank _ _, pairwise_byRank _ _, ?_⟩)
    fun k => ?_).symm
  · intro a ha b hb
    obtain ⟨ha, hpa⟩ := List.mem_filter.1 ((perm_byRank _ _).mem_iff.1 ha)
    obtain ⟨hb, hpb⟩ := List.mem_filter.1 ((perm_byRank _ _).mem_iff.1 hb)
    exact (h a ha b hb hpa (Bool.not_eq_true' _ ▸ hpb)).le
  · rw [List.filter_append, filter_byRank, filter_byRank, List.filter_filter, List.filter_filter]
    -- Elements of one rank are all on one side.
    by_cases hk : ∃ a ∈ as, rank a = k ∧ p a = true
    · obtain ⟨a, ha, rfl, hpa⟩ := hk
      have hsame : ∀ b ∈ as, rank b = rank a → p b = true := fun b hb hba =>
        Bool.eq_true_of_not_eq_false fun hpb => absurd hba (h a ha b hb hpa hpb).ne'
      have hbelow : as.filter (fun b => decide (rank b = rank a) && p b) =
          as.filter (rank · = rank a) := by
        refine List.filter_congr fun b hb => ?_
        rw [Bool.and_eq_left_iff_imp, decide_eq_true_iff]
        exact hsame b hb
      have hothers : as.filter (fun b => decide (rank b = rank a) && !p b) = [] := by
        simp only [List.filter_eq_nil_iff, Bool.and_eq_true, decide_eq_true_iff, Bool.not_eq_true',
          not_and, Bool.not_eq_false]
        exact hsame
      rw [hbelow, hothers, List.append_nil]
    · have hnone : ∀ b ∈ as, rank b = k → p b = false := fun b hb hbk =>
        Bool.eq_false_iff.2 fun hpb => hk ⟨b, hb, hbk, hpb⟩
      have hbelow : as.filter (fun b => decide (rank b = k) && p b) = [] := by
        simp only [List.filter_eq_nil_iff, Bool.and_eq_true, decide_eq_true_iff, not_and,
          Bool.not_eq_true]
        exact hnone
      have hothers : as.filter (fun b => decide (rank b = k) && !p b) =
          as.filter (rank · = k) := by
        refine List.filter_congr fun b hb => ?_
        rw [Bool.and_eq_left_iff_imp, decide_eq_true_iff, Bool.not_eq_true']
        exact hnone b hb
      rw [hbelow, hothers, List.nil_append]

theorem perm_partition (p : α → Bool) :
    ((before ++ behind).filter p ++ (before.filter (!p ·) ++ pivot :: behind.filter (!p ·))).Perm
      (before ++ pivot :: behind) := by
  refine .trans ?_ List.perm_middle.symm
  refine (List.Perm.append_left _ List.perm_middle).trans (List.perm_middle.trans (.cons pivot ?_))
  rw [← List.filter_append]
  exact List.filter_append_perm p _

theorem filter_of_eq_false {p : α → Bool} (h : p pivot = false) :
    (before ++ pivot :: behind).filter p = (before ++ behind).filter p := by
  rw [List.filter_append, List.filter_cons_of_neg (Bool.eq_false_iff.1 h), List.filter_append]

theorem filter_of_eq_true {p : α → Bool} (h : p pivot = true) :
    (before ++ pivot :: behind).filter p = before.filter p ++ pivot :: behind.filter p := by
  rw [List.filter_append, List.filter_cons_of_pos h]

section

variable {smaller others larger : List α}

theorem Ranks.less_self (hrank : Ranks rank less all) (h : pivot ∈ all) :
    less pivot pivot = false := by
  rw [hrank pivot h pivot h, decide_eq_false_iff_not]
  exact lt_irrefl _

/-- The pivot is of the lowest rank among those that are not less than it. -/
theorem Ranks.le_of_not_less (hrank : Ranks rank less all) (hall : before ++ pivot :: behind ⊆ all) :
    ∀ a ∈ before.filter (!less · pivot) ++ pivot :: behind.filter (!less · pivot),
      rank pivot ≤ rank a := by
  have hpivot : pivot ∈ all := hall (List.mem_append_right before List.mem_cons_self)
  have hself := hrank.less_self hpivot
  rw [← filter_of_eq_true (p := (!less · pivot)) (by rw [hself, Bool.not_false])]
  intro a ha
  obtain ⟨ha, hnot⟩ := List.mem_filter.1 ha
  rwa [hrank.not_less hpivot (hall ha), decide_eq_true_iff] at hnot

/-- If none are less than it, it is of the lowest rank of all. -/
theorem Ranks.le_of_filter_eq_nil (hrank : Ranks rank less all)
    (hall : before ++ pivot :: behind ⊆ all) (h : (before ++ behind).filter (less · pivot) = []) :
    ∀ a ∈ before ++ pivot :: behind, rank pivot ≤ rank a := by
  have hnone := List.filter_eq_nil_iff.1 h
  have hsame {as : List α} (has : as ⊆ before ++ behind) : as.filter (!less · pivot) = as :=
    List.filter_eq_self.2 fun a ha => by rw [Bool.eq_false_iff.2 (hnone a (has ha)), Bool.not_false]
  have hle := hrank.le_of_not_less hall
  rwa [hsame (List.subset_append_left before behind),
    hsame (List.subset_append_right before behind)] at hle

/-- Elements less than a pivot and the others may be sorted apart. -/
theorem Arranges.partition (hall : before ++ pivot :: behind ⊆ all)
    (hsmaller : Arranges less all ((before ++ behind).filter (less · pivot)) smaller)
    (hothers : Arranges less all
      (before.filter (!less · pivot) ++ pivot :: behind.filter (!less · pivot)) others) :
    Arranges less all (before ++ pivot :: behind) (smaller ++ others) := by
  refine ⟨(hsmaller.perm.append hothers.perm).trans (perm_partition _), fun rank hrank => ?_⟩
  have hpivot : pivot ∈ all := hall (List.mem_append_right before List.mem_cons_self)
  have hself := hrank.less_self hpivot
  rw [hsmaller.eq_byRank rank hrank, hothers.eq_byRank rank hrank,
    ← filter_of_eq_false (p := (less · pivot)) hself,
    ← filter_of_eq_true (p := (!less · pivot)) (by rw [hself, Bool.not_false])]
  refine (byRank_partition fun a ha b hb hbelow hnot => ?_).symm
  rw [hrank a (hall ha) pivot hpivot, decide_eq_true_iff] at hbelow
  rw [hrank b (hall hb) pivot hpivot, decide_eq_false_iff_not, not_lt] at hnot
  exact hbelow.trans_le hnot

/-- Where no element is less than the pivot, those that it is not less than are in order as they
stand. -/
theorem Arranges.partition_of_le (hall : before ++ pivot :: behind ⊆ all)
    (hleast : ∀ rank, Ranks rank less all → ∀ a ∈ before ++ pivot :: behind, rank pivot ≤ rank a)
    (hlarger : Arranges less all ((before ++ behind).filter (less pivot ·)) larger) :
    Arranges less all (before ++ pivot :: behind)
      (before.filter (!less pivot ·) ++ pivot :: behind.filter (!less pivot ·) ++ larger) := by
  refine ⟨?perm, fun rank hrank => ?order⟩
  case perm =>
    exact (hlarger.perm.append_left _).trans (List.perm_append_comm.trans (perm_partition _))
  case order =>
    have hpivot : pivot ∈ all := hall (List.mem_append_right before List.mem_cons_self)
    have hself := hrank.less_self hpivot
    have hnot {a : α} (ha : a ∈ before ++ pivot :: behind) :
        less pivot a = false ↔ rank a ≤ rank pivot := by
      rw [hrank pivot hpivot a (hall ha), decide_eq_false_iff_not, not_lt]
    have hsplit : byRank rank (before ++ pivot :: behind) =
        byRank rank ((before ++ pivot :: behind).filter (!less pivot ·)) ++
          byRank rank ((before ++ pivot :: behind).filter (!!less pivot ·)) := by
      refine byRank_partition fun a ha b hb hequal hlarger => ?_
      rw [Bool.not_eq_true', hnot ha] at hequal
      rw [Bool.not_eq_false', hrank pivot hpivot b (hall hb), decide_eq_true_iff] at hlarger
      exact hequal.trans_lt hlarger
    -- Those that the pivot is not less than are of its rank.
    have hequal : ((before ++ pivot :: behind).filter (!less pivot ·)).Pairwise
        fun a b => rank a ≤ rank b := by
      refine List.pairwise_of_forall_mem_list fun a ha b hb => ?_
      obtain ⟨ha, hna⟩ := List.mem_filter.1 ha
      exact ((hnot ha).1 (Bool.not_eq_true' _ ▸ hna)).trans
        (hleast rank hrank b (List.mem_filter.1 hb).1)
    simp only [Bool.not_not] at hsplit
    rw [hlarger.eq_byRank rank hrank, ← filter_of_eq_false (p := (less pivot ·)) hself,
      ← filter_of_eq_true (p := (!less pivot ·)) (by rw [hself, Bool.not_false]), hsplit,
      byRank_eq_self hequal]

end

/-! ### The place of a pivot -/

theorem median_lt (as : Array α) {a b c bound : Nat} (ha : a < bound) (hb : b < bound)
    (hc : c < bound) : median less as a b c < bound := by
  rw [median]
  split
  · split
    · exact hc
    · exact hb
  · exact ha

theorem medianFrom_lt (as : Array α) {n a b c bound : Nat} (hn : 0 < n) (ha : a + n ≤ bound)
    (hb : b + n ≤ bound) (hc : c + n ≤ bound) : medianFrom less as n a b c < bound := by
  induction n using Nat.strongRecOn generalizing a b c with
  | ind n ih =>
    rw [medianFrom]
    split
    case isTrue =>
      have hpart (i : Nat) (hi : i + n ≤ bound) :
          medianFrom less as (n / 8) i (i + n / 8 * 4) (i + n / 8 * 7) < bound :=
        ih (n / 8) (by omega) (by omega) (by omega) (by omega) (by omega)
      exact median_lt as (hpart a ha) (hpart b hb) (hpart c hc)
    case isFalse => exact median_lt as (by omega) (by omega) (by omega)

theorem pivotPlace_lt (less : α → α → Bool) (h : 8 ≤ as.length) : pivotPlace less as < as.length :=
  medianFrom_lt _ (by omega) (by omega) (by omega) (by omega)

/-! ### Quicksort -/

theorem sorts_quicksort (scratch limit : Nat) {ancestor : Option α} (hall : as ⊆ all)
    (hmem : ∀ a ∈ ancestor, a ∈ all)
    (hancestor : ∀ rank, Ranks rank less all → ∀ a ∈ ancestor, ∀ b ∈ as, rank a ≤ rank b) :
    Sorts less all as (quicksort less scratch limit ancestor as) := by
  induction limit generalizing ancestor as with
  | zero =>
    rw [quicksort]
    split
    case isTrue => exact sorts_sortShort hall
    case isFalse =>
      have hnil : Arranges less all [] [] := .of_pairwise fun _ _ => .nil
      exact sorts_sortByRuns (fun items => some (insertAll less [] items))
        (fun _ has => hnil.insertAll has) true scratch hall
  | succ limit ih =>
    rw [quicksort]
    split
    case isTrue => exact sorts_sortShort hall
    case isFalse hlength =>
      have hlength : 8 ≤ as.length := by
        rw [shortLength] at hlength
        omega
      have hplace := pivotPlace_lt less hlength
      have hsplit : as.take (pivotPlace less as) ++ as[pivotPlace less as] ::
          as.drop (pivotPlace less as + 1) = as := by
        rw [← List.drop_eq_getElem_cons hplace, List.take_append_drop]
      simp only [List.getElem?_eq_getElem hplace, Option.bind_eq_bind, Option.bind_some]
      generalize as.take (pivotPlace less as) = before, as[pivotPlace less as] = pivot,
        as.drop (pivotPlace less as + 1) = behind at hsplit ⊢
      clear hplace hlength
      subst hsplit
      have hpivot : pivot ∈ all := hall (List.mem_append_right before List.mem_cons_self)
      have hrest : before ++ behind ⊆ before ++ pivot :: behind :=
        (List.Sublist.append_left (List.sublist_cons_self pivot behind) before).subset
      split
      case isTrue hleast =>
        have hlarger : (before ++ behind).filter (less pivot ·) ⊆ all :=
          List.Subset.trans (List.filter_subset_self _) (List.Subset.trans hrest hall)
        refine (ih hlarger (by simp) (by simp)).bind fun larger hlarger => ?_
        refine Arranges.partition_of_le hall (fun rank hrank a ha => ?_) hlarger
        rw [Bool.or_eq_true, Option.any_eq_true, List.isEmpty_iff] at hleast
        obtain ⟨b, hb, hnot⟩ | hnone := hleast
        · rw [hrank.not_less hpivot (hmem b hb), decide_eq_true_iff] at hnot
          exact hnot.trans (hancestor rank hrank b hb a ha)
        · exact hrank.le_of_filter_eq_nil hall hnone a ha
      case isFalse =>
        have hsmaller : (before ++ behind).filter (less · pivot) ⊆ all :=
          List.Subset.trans (List.filter_subset_self _) (List.Subset.trans hrest hall)
        have hothers :
            before.filter (!less · pivot) ++ pivot :: behind.filter (!less · pivot) ⊆ all :=
          fun a ha => hall ((perm_partition (less · pivot)).subset (List.mem_append_right _ ha))
        refine (ih hsmaller hmem ?below).bind fun smaller hsmaller => ?_
        case below =>
          intro rank hrank a ha b hb
          exact hancestor rank hrank a ha b (hrest (List.mem_filter.1 hb).1)
        refine (ih hothers (by simpa using hpivot) ?above).bind fun others hothers => ?_
        case above =>
          rintro rank hrank _ ⟨rfl⟩ b hb
          exact hrank.le_of_not_less hall b hb
        exact Arranges.partition hall hsmaller hothers

/-! ### All lists -/

/-- Lists are sorted, whether short or long. -/
theorem sorts_sort (less : α → α → Bool) (as : List α) : Sorts less as as (sort less as) := by
  rw [sort]
  split
  case isTrue =>
    have hnil : Arranges less as [] [] := .of_pairwise fun _ _ => .nil
    exact hnil.insertAll (List.Subset.refl as)
  case isFalse =>
    refine sorts_sortByRuns _ (fun items hitems => ?_) _ _ (List.Subset.refl as)
    exact sorts_quicksort _ _ hitems (by simp) (by simp)

theorem perm_of_sort {sorted : List α} (h : sort less as = some sorted) : sorted.Perm as := by
  have hsorts := sorts_sort less as
  rw [h] at hsorts
  exact hsorts.perm

/-- By ranks a list has a result, in their order. -/
theorem sort_eq_byRank (hrank : Ranks rank less as) : sort less as = some (byRank rank as) := by
  have hsorts := sorts_sort less as
  cases h : sort less as with
  | none =>
    rw [h] at hsorts
    exact absurd hrank (hsorts rank)
  | some sorted =>
    rw [h] at hsorts
    rw [hsorts.eq_byRank rank hrank]

/-- A list that falls into two runs, neither of which is in order, is sorted by pivots. -/
theorem sort_of_two_runs (less : α → α → Bool) (as : List α) {n : Nat}
    (hlength : 2 * shortLength < as.length) (hfits : as.length ≤ scratchLength as.length)
    (hruns : runs less (minRunLength as.length) false as =
      some [⟨as.take n, false⟩, ⟨as.drop n, false⟩]) :
    sort less as =
      quicksort less (scratchLength as.length) (2 * as.length.log2) none as := by
  have hlong : ¬ as.length ≤ 20 := by
    rw [shortLength] at hlength
    omega
  have hitems : (as.take n).length + (as.drop n).length = as.length := by
    rw [← List.length_append, List.take_append_drop]
  have hmerge (length place : Nat) (sortItems : List α → Option (List α)) :
      mergeRuns less sortItems (scratchLength as.length) length place []
        ⟨as.take n, false⟩ [⟨as.drop n, false⟩] = some ⟨as, false⟩ := by
    simp only [mergeRuns, joinDeeper, joinRuns, Option.bind_eq_bind, Option.bind_some, hitems]
    simp [Nat.not_lt.2 hfits]
  rw [sort, if_neg hlong, decide_eq_false (Nat.not_le.2 hlength), sortByRuns, hruns]
  simp only [Option.bind_eq_bind, Option.bind_some, hmerge, Run.inOrder, Bool.false_eq_true,
    if_false]

end PathQuery.StableSort
