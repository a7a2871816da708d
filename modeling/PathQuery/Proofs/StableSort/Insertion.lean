/-
Insertion.

An element moves left past those that it is less than, so behind none does one stand that is less
than it; and where that is so from the start, nothing moves.  For elements further apart it says
nothing unless the comparison is that of ranks:

* **`StableSort.perm_insertAll`** — insertion rearranges;
* **`StableSort.isChain_insertAll`** — no element is less than the one just before it;
* **`StableSort.filter_insertAll`** — elements that are not less than each other keep their order;
* **`StableSort.insertAll_of_isChain`** — what is in order stays as it is;
* **`StableSort.insertAll_eq_byRank`** — by ranks, the result is in their order.
-/
import Mathlib.Data.List.Chain
import PathQuery.Proofs.StableSort.Ranks

namespace PathQuery.StableSort

variable {α : Type} {less : α → α → Bool} {a : α} {as sorted : List α}

/-- The first element may stand just behind the second one. -/
def MayFollow (less : α → α → Bool) (later earlier : α) : Prop := less later earlier = false

/-! ### One element -/

theorem perm_insertFromBehind : (insertFromBehind less a sorted).Perm (a :: sorted) := by
  induction sorted with
  | nil => exact .refl _
  | cons last sorted ih =>
    rw [insertFromBehind]
    split
    case isTrue => exact (ih.cons last).trans (.swap _ _ _)
    case isFalse => exact .refl _

/-- Behind all stands the new element, or the one that stood there. -/
theorem mem_head?_insertFromBehind {last : α}
    (h : last ∈ (insertFromBehind less a sorted).head?) : last = a ∨ last ∈ sorted.head? := by
  cases sorted with
  | nil => exact .inl (Option.some_inj.1 h).symm
  | cons first sorted =>
    rw [insertFromBehind] at h
    split at h
    case isTrue => exact .inr h
    case isFalse => exact .inl (Option.some_inj.1 h).symm

theorem isChain_insertFromBehind (hless : ∀ a b, less a b = true → less b a = false)
    (h : sorted.IsChain (MayFollow less)) :
    (insertFromBehind less a sorted).IsChain (MayFollow less) := by
  induction sorted with
  | nil => exact .singleton _
  | cons last sorted ih =>
    obtain ⟨hhead, hsorted⟩ := List.isChain_cons.1 h
    rw [insertFromBehind]
    split
    case isTrue hlt =>
      refine List.isChain_cons.2 ⟨fun next hnext => ?_, ih hsorted⟩
      obtain rfl | hnext := mem_head?_insertFromBehind hnext
      · exact hless _ _ hlt
      · exact hhead next hnext
    case isFalse hlt => exact .cons_cons (Bool.eq_false_iff.2 hlt) h

theorem filter_insertFromBehind {p : α → Bool}
    (hp : ∀ last ∈ sorted, p a = true → p last = true → less a last = false) :
    (insertFromBehind less a sorted).filter p = (a :: sorted).filter p := by
  induction sorted with
  | nil => rfl
  | cons last sorted ih =>
    rw [insertFromBehind]
    split
    case isTrue hlt =>
      rw [List.filter_cons, ih fun x hx => hp x (List.mem_cons_of_mem _ hx), List.filter_cons,
        List.filter_cons, List.filter_cons]
      cases hlast : p last with
      | false => rfl
      | true =>
        -- The new element moves past this one, so it is not one of those.
        cases ha : p a with
        | false => rfl
        | true => exact absurd hlt (Bool.eq_false_iff.1 (hp last List.mem_cons_self ha hlast))
    case isFalse => rfl

theorem insertFromBehind_of_mayFollow (h : ∀ last ∈ sorted.head?, MayFollow less a last) :
    insertFromBehind less a sorted = a :: sorted := by
  cases sorted with
  | nil => rfl
  | cons last sorted => exact if_neg (Bool.eq_false_iff.1 (h last rfl))

theorem perm_insertLast : (insertLast less sorted a).Perm (sorted ++ [a]) := by
  refine (List.reverse_perm _).trans (perm_insertFromBehind.trans ?_)
  exact ((List.reverse_perm sorted).cons a).trans (List.perm_append_singleton a sorted).symm

/-! ### All elements -/

theorem perm_insertAll (sorted as : List α) : (insertAll less sorted as).Perm (sorted ++ as) := by
  induction as generalizing sorted with
  | nil => rw [insertAll, List.foldl_nil, List.append_nil]
  | cons a as ih =>
    rw [List.append_cons]
    exact (ih _).trans (perm_insertLast.append_right as)

/-- No element is less than the one just before it. -/
theorem isChain_insertAll (hless : ∀ a b, less a b = true → less b a = false)
    (h : sorted.IsChain fun earlier later => MayFollow less later earlier) (as : List α) :
    (insertAll less sorted as).IsChain fun earlier later => MayFollow less later earlier := by
  induction as generalizing sorted with
  | nil => exact h
  | cons a as ih =>
    exact ih (List.isChain_reverse.2 (isChain_insertFromBehind hless (List.isChain_reverse.2 h)))

/-- Elements that are not less than each other keep their order. -/
theorem filter_insertAll {p : α → Bool}
    (hp : ∀ a ∈ sorted ++ as, ∀ b ∈ sorted ++ as, p a = true → p b = true → less a b = false) :
    (insertAll less sorted as).filter p = (sorted ++ as).filter p := by
  induction as generalizing sorted with
  | nil => rw [insertAll, List.foldl_nil, List.append_nil]
  | cons a as ih =>
    rw [List.append_cons] at hp ⊢
    have hlast : (insertLast less sorted a).filter p = (sorted ++ [a]).filter p := by
      rw [insertLast, List.filter_reverse, filter_insertFromBehind, ← List.filter_reverse,
        List.reverse_cons, List.reverse_reverse]
      intro last hlast ha
      exact hp a (by simp) last (by simp [List.mem_reverse.1 hlast]) ha
    have hmem : ∀ b ∈ insertLast less sorted a ++ as, b ∈ sorted ++ [a] ++ as := fun b hb =>
      (perm_insertLast.append_right as).mem_iff.1 hb
    rw [insertAll, List.foldl_cons, ← insertAll,
      ih fun x hx y hy => hp x (hmem x hx) y (hmem y hy), List.filter_append, hlast,
      ← List.filter_append]

/-- Where no element is less than the one just before it, nothing moves. -/
theorem insertAll_of_isChain
    (h : (sorted ++ as).IsChain fun earlier later => MayFollow less later earlier) :
    insertAll less sorted as = sorted ++ as := by
  induction as generalizing sorted with
  | nil => rw [insertAll, List.foldl_nil, List.append_nil]
  | cons a as ih =>
    rw [List.append_cons] at h ⊢
    have hlast : insertLast less sorted a = sorted ++ [a] := by
      have hreverse := List.isChain_reverse.2 h.left_of_append
      rw [List.reverse_append, List.reverse_singleton, List.singleton_append] at hreverse
      rw [insertLast, insertFromBehind_of_mayFollow (List.isChain_cons.1 hreverse).1,
        List.reverse_cons, List.reverse_reverse]
    rw [insertAll, List.foldl_cons, ← insertAll, hlast, ih h]

/-! ### Ranks -/

theorem pairwise_insertFromBehind {rank : α → ℤ} (hless : Ranks rank less (a :: sorted))
    (h : sorted.Pairwise fun later earlier => rank earlier ≤ rank later) :
    (insertFromBehind less a sorted).Pairwise fun later earlier => rank earlier ≤ rank later := by
  induction sorted with
  | nil => exact List.pairwise_singleton _ _
  | cons last sorted ih =>
    obtain ⟨hlast, hsorted⟩ := List.pairwise_cons.1 h
    rw [insertFromBehind, hless a (by simp) last (by simp)]
    split
    case isTrue hlt =>
      have hlt := of_decide_eq_true hlt
      refine List.pairwise_cons.2 ⟨fun b hb => ?_, ih (hless.mono (by simp)) hsorted⟩
      obtain rfl | hb := List.mem_cons.1 (perm_insertFromBehind.mem_iff.1 hb)
      · exact hlt.le
      · exact hlast b hb
    case isFalse hle =>
      have hle : rank last ≤ rank a := not_lt.1 fun hlt => hle (decide_eq_true hlt)
      refine List.pairwise_cons.2 ⟨fun b hb => ?_, h⟩
      obtain rfl | hb := List.mem_cons.1 hb
      · exact hle
      · exact (hlast b hb).trans hle

theorem insertAll_eq_byRank {rank : α → ℤ} (hless : Ranks rank less (sorted ++ as))
    (h : sorted.Pairwise fun earlier later => rank earlier ≤ rank later) :
    insertAll less sorted as = byRank rank (sorted ++ as) := by
  refine eq_byRank ?pairwise fun k => filter_insertAll fun a ha b hb hak hbk => ?_
  case pairwise =>
    induction as generalizing sorted with
    | nil => exact h
    | cons a as ih =>
      rw [List.append_cons] at hless
      refine ih (hless.mono (perm_insertLast.append_right as).subset) (List.pairwise_reverse.2 ?_)
      refine pairwise_insertFromBehind (hless.mono ?_) (List.pairwise_reverse.2 h)
      intro b hb
      simp only [List.mem_cons, List.mem_reverse] at hb
      simp only [List.mem_append, List.mem_singleton]
      exact .inl hb.symm
  rw [hless a ha b hb, of_decide_eq_true hak, of_decide_eq_true hbk, decide_eq_false_iff_not]
  exact lt_irrefl k

end PathQuery.StableSort
