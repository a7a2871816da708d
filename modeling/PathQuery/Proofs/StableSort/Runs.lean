/-
Sorting by runs.

* **`StableSort.Run.Arranges`** — what a run stands for: elements in order or as they are;
* **`StableSort.Cut`** — runs that stand for a list, one behind the other;
* **`StableSort.cut_runs`** — a list is cut into such runs;
* **`StableSort.arranges_mergeRuns`** — and they are joined to one, along any tree;
* **`StableSort.sorts_sortByRuns`** — so lists are sorted by runs.

Design notes: the depths at which runs are merged only decide when they are.
-/
import PathQuery.Proofs.StableSort.Short

namespace PathQuery.StableSort

variable {α : Type} {less : α → α → Bool} {rank : α → ℤ} {all as bs cs : List α}

/-! ### What is in order -/

theorem isChain_take_runLength (less : α → α → Bool) (descends : Bool) (as : List α) :
    (as.take (runLength less descends as)).IsChain fun a b => less b a = descends := by
  fun_induction runLength less descends as with
  | case1 a b as h ih =>
    rw [List.take_succ_cons]
    refine List.isChain_cons.2 ⟨fun next hnext => ?_, ih⟩
    obtain ⟨n, hn⟩ := Nat.exists_eq_succ_of_ne_zero
      (runLength_pos less descends (List.cons_ne_nil b as)).ne'
    rw [hn, List.take_succ_cons, List.head?_cons] at hnext
    exact Option.some_inj.1 hnext ▸ eq_of_beq h
  | case2 a b as h => exact .singleton a
  | case3 as h =>
    match as with
    | [] => exact .nil
    | [a] => exact .singleton a
    | a :: b :: as => exact (h a b as rfl).elim

theorem pairwise_of_isChain_not_less (hrank : Ranks rank less as)
    (h : as.IsChain fun a b => less b a = false) : as.Pairwise fun a b => rank a ≤ rank b := by
  have hchain : as.IsChain fun a b => rank a ≤ rank b := by
    refine h.imp_of_mem_imp fun a b ha hb hnot => of_decide_eq_true ?_
    rw [← hrank.not_less ha hb, hnot, Bool.not_false]
  have hmap : (as.map rank).IsChain (· ≤ ·) := (List.isChain_map rank).2 hchain
  exact List.pairwise_map.1 hmap.pairwise

/-- Descending elements are in order the other way round. -/
theorem reverse_eq_byRank (hrank : Ranks rank less as)
    (h : as.IsChain fun a b => less b a = true) : as.reverse = byRank rank as := by
  have hchain : as.IsChain fun a b => rank b < rank a :=
    h.imp_of_mem_imp fun a b ha hb hless => of_decide_eq_true (hrank b hb a ha ▸ hless)
  have hmap : (as.map rank).IsChain (· > ·) := (List.isChain_map rank).2 hchain
  have hpairwise : as.Pairwise fun a b => rank b < rank a := List.pairwise_map.1 hmap.pairwise
  refine eq_byRank (List.pairwise_reverse.2 (hpairwise.imp le_of_lt)) fun k => ?_
  rw [List.filter_reverse]
  -- No two of them are of one rank.
  match hfilter : as.filter (rank · = k) with
  | [] => rfl
  | [a] => rfl
  | a :: b :: same =>
    have hab := List.rel_of_pairwise_cons (hfilter ▸ hpairwise.filter _) List.mem_cons_self
    have hmem : ∀ x ∈ a :: b :: same, rank x = k := by
      rw [← hfilter]
      exact fun x hx => of_decide_eq_true (List.mem_filter.1 hx).2
    rw [hmem a (by simp), hmem b (by simp)] at hab
    exact absurd hab (lt_irrefl k)

/-! ### One run -/

/-- The elements of `as` in a run, in the order of their ranks if the run is in order, or as they
are. -/
structure Run.Arranges (less : α → α → Bool) (all as : List α) (run : Run α) : Prop where
  perm : run.items.Perm as
  eq_byRank : ∀ rank, Ranks rank less all →
    run.items = if run.isSorted then byRank rank as else as

theorem Arranges.run {items : List α} (h : Arranges less all as items) :
    Run.Arranges less all as ⟨items, true⟩ := ⟨h.perm, h.eq_byRank⟩

theorem arranges_nextRun {minLength : Nat} {eager : Bool} (hall : as ⊆ all) :
    Answers (Unranked less all)
      (Run.Arranges less all (as.take (nextLength less minLength eager as)))
      (nextRun less minLength eager as) := by
  have hsub : as.take (nextLength less minLength eager as) ⊆ all :=
    List.Subset.trans (List.take_subset _ as) hall
  rw [nextRun]
  split
  case isTrue hlength =>
    have hchain := isChain_take_runLength less (descends less as) as
    rw [nextLength, if_pos hlength] at hsub ⊢
    refine Arranges.run ⟨?perm, fun rank hrank => ?order⟩
    case perm =>
      split
      · exact List.reverse_perm _
      · exact .refl _
    case order =>
      split
      case isTrue hdescends =>
        rw [hdescends] at hchain hsub ⊢
        exact reverse_eq_byRank (hrank.mono hsub) hchain
      case isFalse hdescends =>
        rw [Bool.not_eq_true] at hdescends
        rw [hdescends] at hchain hsub ⊢
        exact (byRank_eq_self (pairwise_of_isChain_not_less (hrank.mono hsub) hchain)).symm
  case isFalse =>
    split
    case isTrue => exact (sorts_sortShort hsub).map fun _ h => h.run
    case isFalse => exact ⟨.refl _, fun _ _ => rfl⟩

/-! ### All runs -/

/-- Runs that stand for a list, one behind the other. -/
inductive Cut (less : α → α → Bool) (all : List α) : List (Run α) → List α → Prop where
  | nil : Cut less all [] []
  | cons {run : Run α} {runs : List (Run α)} {as bs : List α} (hrun : run.Arranges less all as)
      (hruns : Cut less all runs bs) : Cut less all (run :: runs) (as ++ bs)

theorem cut_runs (minLength : Nat) (eager : Bool) (hall : as ⊆ all) :
    Answers (Unranked less all) (Cut less all · as) (runs less minLength eager as) := by
  fun_induction runs less minLength eager as with
  | case1 => exact Cut.nil
  | case2 as has ih =>
    refine (arranges_nextRun hall).bind fun run hrun => ?_
    refine (ih (List.Subset.trans (List.drop_subset _ as) hall)).bind fun runs hruns => ?_
    have hcut := Cut.cons hrun hruns
    rwa [List.take_append_drop] at hcut

/-! ### Joining -/

section

variable {sortItems : List α → Option (List α)} {scratch : Nat} {run left right : Run α}

theorem Run.Arranges.inOrder (hsort : ∀ as, as ⊆ all → Sorts less all as (sortItems as))
    (hall : as ⊆ all) (h : run.Arranges less all as) :
    Sorts less all as (run.inOrder sortItems) := by
  have hitems : run.items ⊆ all := fun _ ha => hall (h.perm.mem_iff.1 ha)
  rw [Run.inOrder]
  split
  case isTrue hsorted =>
    refine ⟨h.perm, fun rank hrank => ?_⟩
    rw [h.eq_byRank rank hrank, if_pos hsorted]
  case isFalse hsorted =>
    refine (hsort _ hitems).mono fun sorted hlater => ?_
    refine ⟨hlater.perm.trans h.perm, fun rank hrank => ?_⟩
    rw [hlater.eq_byRank rank hrank, h.eq_byRank rank hrank, if_neg hsorted]

theorem arranges_joinRuns (hsort : ∀ as, as ⊆ all → Sorts less all as (sortItems as))
    (hall : as ++ bs ⊆ all) (hleft : left.Arranges less all as)
    (hright : right.Arranges less all bs) :
    Answers (Unranked less all) (Run.Arranges less all (as ++ bs))
      (joinRuns less sortItems scratch left right) := by
  obtain ⟨has, hbs⟩ := List.append_subset.1 hall
  rw [joinRuns]
  split
  case isTrue =>
    refine (hleft.inOrder hsort has).bind fun as' has' => ?_
    refine (hright.inOrder hsort hbs).bind fun bs' hbs' => ?_
    exact (has'.merge hall hbs').run
  case isFalse hjoin =>
    simp only [Bool.or_eq_true, not_or, Bool.not_eq_true] at hjoin
    obtain ⟨⟨hleftSorted, hrightSorted⟩, -⟩ := hjoin
    refine ⟨hleft.perm.append hright.perm, fun rank hrank => ?_⟩
    rw [if_neg Bool.false_ne_true, hleft.eq_byRank rank hrank, hright.eq_byRank rank hrank,
      if_neg (Bool.eq_false_iff.1 hleftSorted), if_neg (Bool.eq_false_iff.1 hrightSorted)]

/-- Runs that wait to be joined, the last one first, stand for the elements so far. -/
inductive Wait (less : α → α → Bool) (all : List α) : List (Run α × Nat) → List α → Prop where
  | nil : Wait less all [] []
  | cons {runs : List (Run α × Nat)} {run : Run α} {as bs : List α} (hruns : Wait less all runs as)
      (hrun : run.Arranges less all bs) (depth : Nat) :
      Wait less all ((run, depth) :: runs) (as ++ bs)

theorem wait_joinDeeper (hsort : ∀ as, as ⊆ all → Sorts less all as (sortItems as)) (depth : Nat)
    {earlier : List (Run α × Nat)} (hearlier : Wait less all earlier as)
    (hrun : run.Arranges less all bs) (hall : as ++ bs ⊆ all) :
    Answers (Unranked less all)
      (fun joined => ∃ as' bs', Wait less all joined.1 as' ∧ joined.2.Arranges less all bs' ∧
        as' ++ bs' = as ++ bs ∧ (depth = 0 → as' = []))
      (joinDeeper less sortItems scratch depth earlier run) := by
  induction hearlier generalizing run bs with
  | nil => exact ⟨[], bs, .nil, hrun, rfl, fun _ => rfl⟩
  | @cons earlier last as cs hearlier hlast lastDepth ih =>
    rw [joinDeeper]
    rw [List.append_assoc] at hall ⊢
    split
    case isTrue =>
      have hjoined : cs ++ bs ⊆ all := (List.append_subset.1 hall).2
      exact (arranges_joinRuns hsort hjoined hlast hrun).bind fun joined hjoined => ih hjoined hall
    case isFalse hdepth =>
      refine ⟨as ++ cs, bs, hearlier.cons hlast lastDepth, hrun, List.append_assoc .., ?_⟩
      rintro rfl
      exact absurd (Nat.zero_le _) hdepth

theorem arranges_mergeRuns (hsort : ∀ as, as ⊆ all → Sorts less all as (sortItems as))
    (scratch length place : Nat) {earlier : List (Run α × Nat)} {later : List (Run α)}
    (hearlier : Wait less all earlier as) (hrun : run.Arranges less all bs)
    (hlater : Cut less all later cs) (hall : as ++ bs ++ cs ⊆ all) :
    Answers (Unranked less all) (Run.Arranges less all (as ++ bs ++ cs))
      (mergeRuns less sortItems scratch length place earlier run later) := by
  induction hlater generalizing as bs place earlier run with
  | nil =>
    rw [mergeRuns]
    rw [List.append_nil] at hall ⊢
    refine (wait_joinDeeper hsort 0 hearlier hrun hall).map ?_
    rintro joined ⟨as', bs', -, hjoined, heq, hnil⟩
    rwa [← heq, hnil rfl, List.nil_append]
  | @cons next later cs ds hnext hlater ih =>
    rw [mergeRuns]
    have hjoin : as ++ bs ⊆ all := (List.append_subset.1 hall).1
    refine (wait_joinDeeper hsort _ hearlier hrun hjoin).bind ?_
    rintro ⟨earlier', last'⟩ ⟨as', bs', hearlier', hlast', heq, -⟩
    rw [← List.append_assoc, ← heq] at hall ⊢
    exact ih _ (hearlier'.cons hlast' _) hnext hall

/-- Lists are sorted by runs, if those that are not in order can be sorted. -/
theorem sorts_sortByRuns (sortItems : List α → Option (List α))
    (hsort : ∀ as, as ⊆ all → Sorts less all as (sortItems as)) (eager : Bool) (scratch : Nat)
    (hall : as ⊆ all) : Sorts less all as (sortByRuns less sortItems eager scratch as) := by
  rw [sortByRuns]
  refine (cut_runs _ eager hall).bind fun runs hruns => ?_
  cases hruns with
  | nil => exact Arranges.of_pairwise fun _ _ => .nil
  | @cons first later as bs hfirst hlater =>
    have hmerge := arranges_mergeRuns hsort scratch (as ++ bs).length first.items.length .nil hfirst
      hlater hall
    exact hmerge.bind fun run hrun => hrun.inOrder hsort hall

end

end PathQuery.StableSort
