/-
Sorting short lists.

* **`StableSort.Arranges`** — what a sorted list is: the elements rearranged, and by ranks in their
  order;
* **`StableSort.Answers`** — an answer of which something holds, or none if there may be none;
* **`StableSort.sorts_sortShort`** — short lists are sorted, or the comparison is not that of ranks.

Design notes: one statement says for each function what it does by ranks and what it does whatever
the comparison is, so that each is opened once.
-/
import PathQuery.Proofs.StableSort.Insertion
import PathQuery.Proofs.StableSort.Merging

namespace PathQuery.StableSort

variable {α β γ : Type} {less : α → α → Bool} {all as bs as' bs' sorted : List α}

/-! ### What is asked -/

/-- The elements of `as` rearranged, and in the order of their ranks if the comparison is that of
ranks on `all`. -/
structure Arranges (less : α → α → Bool) (all as sorted : List α) : Prop where
  perm : sorted.Perm as
  eq_byRank : ∀ rank, Ranks rank less all → sorted = byRank rank as

/-- The comparison is not that of ranks. -/
def Unranked (less : α → α → Bool) (all : List α) : Prop := ∀ rank, ¬ Ranks rank less all

/-- An answer of which `P` holds, or none if there may be none. -/
def Answers (mayLack : Prop) (P : β → Prop) : Option β → Prop
  | some b => P b
  | none => mayLack

theorem Answers.mono {mayLack : Prop} {P Q : β → Prop} {o : Option β} (ho : Answers mayLack P o)
    (h : ∀ b, P b → Q b) : Answers mayLack Q o := by
  cases o with
  | some b => exact h b ho
  | none => exact ho

theorem Answers.bind {mayLack : Prop} {P : β → Prop} {Q : γ → Prop} {o : Option β}
    {f : β → Option γ} (ho : Answers mayLack P o) (hf : ∀ b, P b → Answers mayLack Q (f b)) :
    Answers mayLack Q (o >>= f) := by
  cases o with
  | some b => exact hf b ho
  | none => exact ho

theorem Answers.map {mayLack : Prop} {P : β → Prop} {Q : γ → Prop} {o : Option β} {f : β → γ}
    (ho : Answers mayLack P o) (hf : ∀ b, P b → Q (f b)) : Answers mayLack Q (o.map f) := by
  cases o with
  | some b => exact hf b ho
  | none => exact ho

/-- The elements are sorted, or the comparison is not that of ranks. -/
abbrev Sorts (less : α → α → Bool) (all as : List α) : Option (List α) → Prop :=
  Answers (Unranked less all) (Arranges less all as)

namespace Arranges

variable {rank : α → ℤ}

theorem pairwise (h : Arranges less all as sorted) (hrank : Ranks rank less all) :
    sorted.Pairwise fun a b => rank a ≤ rank b :=
  h.eq_byRank rank hrank ▸ pairwise_byRank rank as

/-- Elements of which none is of a higher rank than a later one are arranged as they are. -/
theorem of_pairwise
    (h : ∀ rank, Ranks rank less all → as.Pairwise fun a b => rank a ≤ rank b) :
    Arranges less all as as :=
  ⟨.refl _, fun rank hrank => (byRank_eq_self (h rank hrank)).symm⟩

theorem insertAll (hall : as ++ bs ⊆ all) (h : Arranges less all as sorted) :
    Arranges less all (as ++ bs) (insertAll less sorted bs) := by
  refine ⟨(perm_insertAll sorted bs).trans (h.perm.append_right bs), fun rank hrank => ?_⟩
  have hsub : sorted ++ bs ⊆ all := fun _ ha => hall ((h.perm.append_right bs).mem_iff.1 ha)
  rw [insertAll_eq_byRank (hrank.mono hsub) (h.pairwise hrank), h.eq_byRank rank hrank,
    byRank_append_left]

theorem merge (hall : as ++ bs ⊆ all) (has : Arranges less all as as')
    (hbs : Arranges less all bs bs') : Arranges less all (as ++ bs) (merge less as' bs') := by
  have hperm : (as' ++ bs').Perm (as ++ bs) := has.perm.append hbs.perm
  refine ⟨(perm_merge as' bs').trans hperm, fun rank hrank => ?_⟩
  rw [merge_eq_byRank_append (hrank.mono fun _ ha => hall (hperm.mem_iff.1 ha))
    (has.pairwise hrank) (hbs.pairwise hrank), has.eq_byRank rank hrank, hbs.eq_byRank rank hrank,
    byRank_append]

end Arranges

/-! ### Four elements -/

section

variable {a b c d p q r s : α}

theorem perm_sortTwo : [(sortTwo less a b).1, (sortTwo less a b).2].Perm [a, b] := by
  rw [sortTwo]
  split
  · exact .swap a b []
  · exact .refl _

theorem perm_mergePairs : (mergePairs less a b c d).Perm [a, b, c, d] := by
  classical
  have hcount (x y z : α) : [(sortTwo less x y).1, (sortTwo less x y).2].count z = [x, y].count z :=
    perm_sortTwo.count_eq z
  refine List.perm_iff_count.2 fun z => ?_
  simp only [List.count_cons, List.count_nil] at hcount
  rw [mergePairs]
  split <;> simp only [List.count_cons, List.count_nil]
  · have := hcount b c z
    omega
  · have := hcount c d z
    omega
  · have := hcount a b z
    omega
  · have := hcount a d z
    omega

/-- By ranks two pairs are merged. -/
theorem mergePairs_eq_mergeUp {rank : α → ℤ} (hless : Ranks rank less [a, b, c, d])
    (hab : rank a ≤ rank b) (hcd : rank c ≤ rank d) :
    mergePairs less a b c d = mergeUp less [a, b] [c, d] := by
  have hca := hless c (by simp) a (by simp)
  have hda := hless d (by simp) a (by simp)
  have hcb := hless c (by simp) b (by simp)
  have hdb := hless d (by simp) b (by simp)
  have hba := hless b (by simp) a (by simp)
  have hdc := hless d (by simp) c (by simp)
  rw [mergePairs, mergeUp, hca, hdb]
  by_cases hfirst : rank c < rank a <;> by_cases hlast : rank d < rank b <;>
    simp only [hfirst, hlast, decide_true, decide_false, sortTwo, List.cons_merge_cons, hca, hda,
      hcb, hdb, hba, hdc, List.nil_merge, List.merge_right, Bool.not_true, Bool.not_false]
  -- One more comparison decides between the two in the middle, if they are not of one pair.
  · by_cases hmiddle : rank d < rank a <;> simp [hmiddle]
  · simp [not_lt.2 hab, show ¬ rank d < rank a by omega]
  · simp [not_lt.2 hcd, show rank c < rank b by omega]
  · by_cases hmiddle : rank c < rank b <;> simp [hmiddle]

theorem sortTwo_eq_mergeUp :
    [(sortTwo less a b).1, (sortTwo less a b).2] = mergeUp less [a] [b] := by
  rw [sortTwo, mergeUp, List.cons_merge_cons]
  cases less b a with
  | true => rw [if_pos rfl, Bool.not_true, if_neg Bool.false_ne_true, List.merge_right]
  | false => rw [if_neg Bool.false_ne_true, Bool.not_false, if_pos rfl, List.nil_merge]

theorem arranges_sortTwo (hall : [a, b] ⊆ all) :
    Arranges less all [a, b] [(sortTwo less a b).1, (sortTwo less a b).2] := by
  refine ⟨perm_sortTwo, fun rank hrank => ?_⟩
  have hmerge : mergeUp less [a] [b] = byRank rank ([a] ++ [b]) :=
    mergeUp_eq_byRank (hrank.mono hall) (List.pairwise_singleton _ a) (List.pairwise_singleton _ b)
  rw [sortTwo_eq_mergeUp, hmerge]
  rfl

theorem arranges_sortFour (hall : [p, q, r, s] ⊆ all) :
    Arranges less all [p, q, r, s] (sortFour less p q r s) := by
  obtain ⟨hallFirst, hallSecond⟩ := List.append_subset.1 (show [p, q] ++ [r, s] ⊆ all from hall)
  have hpq : Arranges less all [p, q] _ := arranges_sortTwo hallFirst
  have hrs : Arranges less all [r, s] _ := arranges_sortTwo hallSecond
  have hperm := hpq.perm.append hrs.perm
  refine ⟨perm_mergePairs.trans hperm, fun rank hrank => ?_⟩
  have hless := hrank.mono fun _ hx => hall (hperm.mem_iff.1 hx)
  have hab := hpq.pairwise hrank
  have hcd := hrs.pairwise hrank
  have hmerge := mergePairs_eq_mergeUp hless (by simpa using hab) (by simpa using hcd)
  rw [show sortFour less p q r s = _ from hmerge,
    mergeUp_eq_byRank hless hab hcd, hpq.eq_byRank rank hrank, hrs.eq_byRank rank hrank,
    byRank_append]
  rfl

end

/-! ### Halves -/

theorem arranges_sortHalf (byFours : Bool) (hall : as ⊆ all) :
    Arranges less all as (sortHalf less byFours as) := by
  have hnil : Arranges less all [] [] := .of_pairwise fun _ _ => .nil
  fun_cases sortHalf less byFours as with
  | case1 p q r s as hfours =>
    have hfirst : [p, q, r, s] ⊆ all := fun x hx => hall (List.mem_append_left as hx)
    exact (arranges_sortFour hfirst).insertAll hall
  | case2 p q r s as hfours => exact hnil.insertAll hall
  | case3 => exact hnil.insertAll hall

theorem sorts_mergeFromEnds (hall : as ++ bs ⊆ all) (hleft : Arranges less all as as')
    (hright : Arranges less all bs bs')
    (hlength : bs.length = as.length ∨ bs.length = as.length + 1) :
    Sorts less all (as ++ bs) (mergeFromEnds less as' bs') := by
  have hperm := hleft.perm.append hright.perm
  have hlength' : bs'.length = as'.length ∨ bs'.length = as'.length + 1 := by
    rwa [hleft.perm.length_eq, hright.perm.length_eq]
  have hmerge {rank : α → ℤ} (hrank : Ranks rank less all) :
      mergeFromEnds less as' bs' = some (byRank rank (as' ++ bs')) :=
    mergeFromEnds_eq_byRank hlength' (hrank.mono fun _ ha => hall (hperm.mem_iff.1 ha))
      (hleft.pairwise hrank) (hright.pairwise hrank)
  cases hsort : mergeFromEnds less as' bs' with
  | none => exact fun rank hrank => nomatch hsort.symm.trans (hmerge hrank)
  | some sorted =>
    refine ⟨(perm_of_mergeFromEnds hlength' hsort).trans hperm, fun rank hrank => ?_⟩
    rw [Option.some_inj.1 (hsort.symm.trans (hmerge hrank)), hleft.eq_byRank rank hrank,
      hright.eq_byRank rank hrank, byRank_append]

theorem sorts_sortShort (hall : as ⊆ all) : Sorts less all as (sortShort less as) := by
  rw [sortShort]
  split
  case isTrue hlength =>
    refine Arranges.of_pairwise fun _ _ => ?_
    match as with
    | [] => exact .nil
    | [a] => exact List.pairwise_singleton _ a
  case isFalse =>
    have hhalves := List.take_append_drop (as.length / 2) as
    have hsort : Sorts less all (as.take (as.length / 2) ++ as.drop (as.length / 2))
        (mergeFromEnds less (sortHalf less (8 ≤ as.length) (as.take (as.length / 2)))
          (sortHalf less (8 ≤ as.length) (as.drop (as.length / 2)))) := by
      refine sorts_mergeFromEnds (hhalves.symm ▸ hall)
        (arranges_sortHalf _ (List.Subset.trans (List.take_subset _ as) hall))
        (arranges_sortHalf _ (List.Subset.trans (List.drop_subset _ as) hall)) ?_
      rw [List.length_take, List.length_drop]
      omega
    rwa [hhalves] at hsort

end PathQuery.StableSort
