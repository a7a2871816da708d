/-
Merging.

Whatever the comparison, merging two lists keeps the elements of each in their order.  By ranks,
lists in order are merged to one, from the front and from behind alike:

* **`StableSort.mergeUp_eq_byRank`, `StableSort.mergeDown_eq_byRank`** — from one end;
* **`StableSort.perm_of_mergeFromEnds`** — from both ends elements are rearranged, if they meet;
* **`StableSort.mergeFromEnds_eq_byRank`** — and by ranks they do.

Design notes: elements are marked by the half they are from, so that it can be said where those of
one half are in the result, equal or not.
-/
import PathQuery.Proofs.StableSort.Ranks

namespace PathQuery.StableSort

variable {α : Type} {less : α → α → Bool} {rank : α → ℤ} {left right : List α}

/-! ### From one end -/

theorem mergeUp_eq_byRank (hless : Ranks rank less (left ++ right))
    (hleft : left.Pairwise fun a b => rank a ≤ rank b)
    (hright : right.Pairwise fun a b => rank a ≤ rank b) :
    mergeUp less left right = byRank rank (left ++ right) :=
  merge_eq_byRank hleft hright fun _ ha _ hb =>
    hless.not_less (List.mem_append_left _ ha) (List.mem_append_right _ hb)

theorem mergeDown_eq_byRank (hless : Ranks rank less (left ++ right))
    (hleft : left.Pairwise fun a b => rank a ≤ rank b)
    (hright : right.Pairwise fun a b => rank a ≤ rank b) :
    mergeDown less left right = byRank rank (left ++ right) := by
  have hmerge : (right.reverse.merge left.reverse fun r l => !less r l) =
      byRank (fun a => -rank a) (right.reverse ++ left.reverse) := by
    refine merge_eq_byRank (List.pairwise_reverse.2 ?_) (List.pairwise_reverse.2 ?_) ?_
    · exact hright.imp fun h => Int.neg_le_neg h
    · exact hleft.imp fun h => Int.neg_le_neg h
    · intro r hr l hl
      rw [hless.not_less (List.mem_append_left _ (List.mem_reverse.1 hl))
        (List.mem_append_right _ (List.mem_reverse.1 hr)), decide_eq_decide]
      exact Int.neg_le_neg_iff.symm
  rw [mergeDown, hmerge, ← List.reverse_append, reverse_byRank_neg]

theorem perm_mergeUp (left right : List α) : (mergeUp less left right).Perm (left ++ right) :=
  List.merge_perm_append _

theorem perm_mergeDown (left right : List α) :
    (mergeDown less left right).Perm (left ++ right) := by
  refine (List.reverse_perm _).trans ((List.merge_perm_append _).trans ?_)
  rw [← List.reverse_append]
  exact List.reverse_perm _

theorem perm_merge (left right : List α) : (merge less left right).Perm (left ++ right) := by
  rw [merge]
  split
  · exact perm_mergeUp left right
  · exact perm_mergeDown left right

theorem merge_eq_byRank_append (hless : Ranks rank less (left ++ right))
    (hleft : left.Pairwise fun a b => rank a ≤ rank b)
    (hright : right.Pairwise fun a b => rank a ≤ rank b) :
    merge less left right = byRank rank (left ++ right) := by
  rw [merge]
  split
  · exact mergeUp_eq_byRank hless hleft hright
  · exact mergeDown_eq_byRank hless hleft hright

/-! ### Marks -/

/-- Of two lists that a property tells apart, the elements of each keep their order. -/
theorem filter_merge_of_marked {p : α → Bool} (le : α → α → Bool) (left right : List α)
    (hleft : ∀ a ∈ left, p a = true) (hright : ∀ a ∈ right, p a = false) :
    (left.merge right le).filter p = left ∧ (left.merge right le).filter (!p ·) = right := by
  induction left, right using List.merge.induct le with
  | case1 right =>
    rw [List.nil_merge, List.filter_eq_nil_iff, List.filter_eq_self]
    exact ⟨fun a ha => by rw [hright a ha]; decide, fun a ha => by rw [hright a ha]; rfl⟩
  | case2 left =>
    rw [List.merge_right, List.filter_eq_nil_iff, List.filter_eq_self]
    exact ⟨hleft, fun a ha => by rw [hleft a ha]; decide⟩
  | case3 a left b right hab ih =>
    obtain ⟨hp, hnot⟩ := ih (fun x hx => hleft x (List.mem_cons_of_mem _ hx)) hright
    have ha := hleft a List.mem_cons_self
    rw [List.cons_merge_cons, if_pos hab, List.filter_cons, List.filter_cons, ha, hp, hnot]
    exact ⟨rfl, rfl⟩
  | case4 a left b right hab ih =>
    obtain ⟨hp, hnot⟩ := ih hleft fun x hx => hright x (List.mem_cons_of_mem _ hx)
    have hb := hright b List.mem_cons_self
    rw [List.cons_merge_cons, if_neg hab, List.filter_cons, List.filter_cons, hb, hp, hnot]
    exact ⟨rfl, rfl⟩

/-- The elements of the halves in a list, in their order. -/
structure Holds (merged left right : List (α × Bool)) : Prop where
  fromLeft : merged.filter (·.2) = left
  fromRight : merged.filter (!·.2) = right

section

variable {merged left right front behind : List (α × Bool)}

theorem Holds.perm (h : Holds merged left right) : merged.Perm (left ++ right) := by
  rw [← h.fromLeft, ← h.fromRight]
  exact (List.filter_append_perm _ merged).symm

theorem Holds.append {left' right' merged' : List (α × Bool)} (h : Holds merged left right)
    (h' : Holds merged' left' right') :
    Holds (merged ++ merged') (left ++ left') (right ++ right') :=
  ⟨by rw [List.filter_append, h.fromLeft, h'.fromLeft],
    by rw [List.filter_append, h.fromRight, h'.fromRight]⟩

/-- What is taken from the front are elements from the front of each half. -/
theorem Holds.take (h : Holds merged left right) (k : Nat) :
    Holds (merged.take k) (left.take ((merged.take k).countP (·.2)))
      (right.take ((merged.take k).countP (!·.2))) := by
  have hfilter (p : α × Bool → Bool) :
      (merged.take k).filter p = (merged.filter p).take ((merged.take k).countP p) := by
    rw [List.countP_eq_length_filter]
    conv_rhs => rw [← List.take_append_drop k merged, List.filter_append]
    rw [List.take_append_drop, List.take_left]
  rw [← h.fromLeft, ← h.fromRight]
  exact ⟨hfilter _, hfilter _⟩

theorem Holds.drop (h : Holds merged left right) (k : Nat) :
    Holds (merged.drop k) (left.drop (left.length - (merged.drop k).countP (·.2)))
      (right.drop (right.length - (merged.drop k).countP (!·.2))) := by
  have hfilter (p : α × Bool → Bool) : (merged.drop k).filter p =
      (merged.filter p).drop ((merged.filter p).length - (merged.drop k).countP p) := by
    have hsplit : merged.filter p = (merged.take k).filter p ++ (merged.drop k).filter p := by
      rw [← List.filter_append, List.take_append_drop]
    rw [hsplit, List.countP_eq_length_filter, List.length_append, Nat.add_sub_cancel,
      List.drop_left]
  rw [← h.fromLeft, ← h.fromRight]
  exact ⟨hfilter _, hfilter _⟩

theorem Holds.singleton_left {a : α × Bool} (h : a.2 = true) : Holds [a] [a] [] :=
  ⟨by rw [List.filter_singleton, h]; rfl, by rw [List.filter_singleton, h]; rfl⟩

theorem Holds.singleton_right {a : α × Bool} (h : a.2 = false) : Holds [a] [] [a] :=
  ⟨by rw [List.filter_singleton, h]; rfl, by rw [List.filter_singleton, h]; rfl⟩

theorem take_append_drop_of_eq {as : List α} {m n : Nat} (h : m = n) :
    as.take m ++ as.drop n = as := by
  rw [h, List.take_append_drop]

theorem take_append_getElem_append_drop {as : List α} {m n : Nat} (hm : m < as.length)
    (h : m + 1 = n) : as.take m ++ [as[m]] ++ as.drop n = as := by
  rw [List.take_append_getElem, h, List.take_append_drop]

theorem length_eq_countP_add (as : List (α × Bool)) :
    as.length = as.countP (·.2) + as.countP (!·.2) := by
  rw [List.length_eq_countP_add_countP (·.2)]
  simp

/-- If the two ends meet, all elements of the halves are there. -/
theorem holds_of_meet (hleft : ∀ a ∈ left, a.2 = true) (hright : ∀ a ∈ right, a.2 = false)
    (hlength : right.length = left.length ∨ right.length = left.length + 1)
    (hfront : Holds front (left.take (front.countP (·.2))) (right.take (front.countP (!·.2))))
    (hbehind : Holds behind (left.drop (left.length - behind.countP (·.2)))
      (right.drop (right.length - behind.countP (!·.2))))
    (hfrontLength : front.length = left.length) (hbehindLength : behind.length = left.length)
    (h : meet left right front behind = some merged) : Holds merged left right := by
  rw [length_eq_countP_add] at hfrontLength hbehindLength
  obtain ⟨hcount, hmerged⟩ := Option.ite_none_right_eq_some.1 h
  obtain rfl := Option.some_inj.1 hmerged
  rw [List.countP_append, List.countP_append] at hcount
  rw [between] at hcount ⊢
  by_cases heq : left.length = right.length
  · rw [if_pos heq, Option.toList_none, List.countP_nil] at hcount
    rw [if_pos heq, Option.toList_none, List.append_nil]
    have hall := hfront.append hbehind
    rwa [take_append_drop_of_eq (by omega), take_append_drop_of_eq (by omega)] at hall
  rw [if_neg heq, List.countP_append] at hcount
  rw [if_neg heq, List.countP_append]
  by_cases hmiss : front.countP (·.2) + behind.countP (·.2) < left.length
  · have hplace : front.countP (·.2) < left.length := by omega
    have hmark := hleft _ (List.getElem_mem hplace)
    rw [if_pos hmiss, List.getElem?_eq_getElem hplace, Option.toList_some, List.countP_singleton,
      if_pos hmark] at hcount
    rw [if_pos hmiss, List.getElem?_eq_getElem hplace, Option.toList_some]
    have hall := (hfront.append (.singleton_left hmark)).append hbehind
    rwa [take_append_getElem_append_drop hplace (by omega), List.append_nil,
      take_append_drop_of_eq (by omega)] at hall
  · have hplace : front.countP (!·.2) < right.length := by omega
    have hmark := hright _ (List.getElem_mem hplace)
    rw [if_neg hmiss, List.getElem?_eq_getElem hplace, Option.toList_some, List.countP_singleton,
      if_neg (Bool.eq_false_iff.1 hmark)] at hcount
    rw [if_neg hmiss, List.getElem?_eq_getElem hplace, Option.toList_some]
    have hall := (hfront.append (.singleton_right hmark)).append hbehind
    rwa [take_append_getElem_append_drop hplace (by omega), List.append_nil,
      take_append_drop_of_eq (by omega)] at hall

/-- The two ends of one list meet. -/
theorem meet_of_holds (hlength : right.length = left.length ∨ right.length = left.length + 1)
    (h : Holds merged left right) :
    meet left right (merged.take left.length) (merged.drop right.length) = some merged := by
  have hcount : merged.countP (·.2) = left.length := by
    rw [List.countP_eq_length_filter, h.fromLeft]
  have htotal := h.perm.length_eq
  rw [List.length_append] at htotal
  suffices hall : merged.take left.length ++
      (between left right (merged.take left.length) (merged.drop right.length)).toList ++
        merged.drop right.length = merged by
    rw [meet, hall, if_pos hcount]
  obtain heq | hlonger := hlength
  · rw [between, if_pos heq.symm, Option.toList_none, List.append_nil,
      take_append_drop_of_eq heq.symm]
  have hplace : left.length < merged.length := by omega
  suffices hmiddle : between left right (merged.take left.length) (merged.drop right.length) =
      some merged[left.length] by
    rw [hmiddle, Option.toList_some, take_append_getElem_append_drop hplace hlonger.symm]
  -- The element in the middle is the next one of its half.
  have hmerged : merged = merged.take left.length ++ merged[left.length] ::
      merged.drop right.length := by
    rw [hlonger, ← List.drop_eq_getElem_cons hplace, List.take_append_drop]
  have hnext (p : α × Bool → Bool) (hp : p merged[left.length] = true) :
      (merged.filter p)[(merged.take left.length).countP p]? = some merged[left.length] := by
    conv_lhs => rw [hmerged]
    rw [List.filter_append, List.filter_cons_of_pos hp, ← hmerged, List.countP_eq_length_filter,
      List.getElem?_append_right (Nat.le_refl _), Nat.sub_self, List.getElem?_cons_zero]
  rw [hmerged, List.countP_append, List.countP_cons] at hcount
  rw [between, if_neg (by omega), List.countP_append]
  cases hmark : merged[left.length].2 with
  | true =>
    have hleft := hnext (·.2) hmark
    rw [h.fromLeft] at hleft
    rw [hmark, if_pos rfl] at hcount
    rw [if_pos (by omega), hleft]
  | false =>
    have hright := hnext (!·.2) (by rw [hmark, Bool.not_false])
    rw [h.fromRight] at hright
    rw [hmark, if_neg Bool.false_ne_true] at hcount
    rw [if_neg (by omega), hright]

end

/-! ### From both ends -/

theorem map_fst_map_mark (as : List α) (mark : Bool) : (as.map (·, mark)).map Prod.fst = as := by
  rw [List.map_map, Function.comp_def, List.map_id']

theorem holds_mergeUp (less : α → α → Bool) (left right : List α) :
    Holds (mergeUp (markedLess less) (left.map (·, true)) (right.map (·, false)))
      (left.map (·, true)) (right.map (·, false)) := by
  obtain ⟨hleft, hright⟩ := filter_merge_of_marked (p := fun a : α × Bool => a.2)
    (fun l r => !markedLess less r l) (left.map (·, true)) (right.map (·, false)) (by simp)
    (by simp)
  exact ⟨hleft, hright⟩

theorem holds_mergeDown (less : α → α → Bool) (left right : List α) :
    Holds (mergeDown (markedLess less) (left.map (·, true)) (right.map (·, false)))
      (left.map (·, true)) (right.map (·, false)) := by
  obtain ⟨hright, hleft⟩ := filter_merge_of_marked (p := fun a : α × Bool => !a.2)
    (fun r l => !markedLess less r l) (right.map (·, false)).reverse (left.map (·, true)).reverse
    (by simp) (by simp)
  simp only [Bool.not_not] at hleft
  exact ⟨by rw [mergeDown, List.filter_reverse, hleft, List.reverse_reverse],
    by rw [mergeDown, List.filter_reverse, hright, List.reverse_reverse]⟩

/-- Whatever the comparison, the elements are rearranged if the two ends meet. -/
theorem perm_of_mergeFromEnds {merged : List α}
    (hlength : right.length = left.length ∨ right.length = left.length + 1)
    (h : mergeFromEnds less left right = some merged) : merged.Perm (left ++ right) := by
  obtain ⟨both, hmeet, rfl⟩ := Option.map_eq_some_iff.1 h
  have hup := holds_mergeUp less left right
  have hdown := holds_mergeDown less left right
  have hupLength := hup.perm.length_eq
  have hdownLength := hdown.perm.length_eq
  rw [List.length_append, List.length_map, List.length_map] at hupLength hdownLength
  have hholds : Holds both (left.map (·, true)) (right.map (·, false)) := by
    refine holds_of_meet (by simp) (by simp) (by simpa using hlength) (hup.take _) (hdown.drop _)
      ?_ ?_ hmeet
    · rw [List.length_take, hupLength, List.length_map]
      omega
    · rw [List.length_drop, hdownLength, List.length_map]
      omega
  have hperm := hholds.perm.map Prod.fst
  rwa [List.map_append, map_fst_map_mark, map_fst_map_mark] at hperm

/-- By ranks the two ends do meet. -/
theorem mergeFromEnds_eq_byRank
    (hlength : right.length = left.length ∨ right.length = left.length + 1)
    (hless : Ranks rank less (left ++ right)) (hleft : left.Pairwise fun a b => rank a ≤ rank b)
    (hright : right.Pairwise fun a b => rank a ≤ rank b) :
    mergeFromEnds less left right = some (byRank rank (left ++ right)) := by
  have hmarked : Ranks (rank ∘ Prod.fst) (markedLess less)
      (left.map (·, true) ++ right.map (·, false)) := by
    have hmem : ∀ a ∈ left.map (·, true) ++ right.map (·, false), a.1 ∈ left ++ right := by
      intro a ha
      simp only [List.mem_append, List.mem_map] at ha ⊢
      obtain ⟨x, hx, rfl⟩ | ⟨x, hx, rfl⟩ := ha
      · exact .inl hx
      · exact .inr hx
    exact fun a ha b hb => hless a.1 (hmem a ha) b.1 (hmem b hb)
  have hpairwise {as : List α} (mark : Bool) (h : as.Pairwise fun a b => rank a ≤ rank b) :
      (as.map (·, mark)).Pairwise fun a b => (rank ∘ Prod.fst) a ≤ (rank ∘ Prod.fst) b :=
    List.pairwise_map.2 h
  have hup := mergeUp_eq_byRank hmarked (hpairwise true hleft) (hpairwise false hright)
  have hdown := mergeDown_eq_byRank hmarked (hpairwise true hleft) (hpairwise false hright)
  have hmeet := meet_of_holds (by simpa using hlength) (hup ▸ holds_mergeUp less left right)
  rw [List.length_map, List.length_map] at hmeet
  rw [mergeFromEnds]
  simp only [hup, hdown, hmeet, Option.map_some]
  rw [map_byRank, List.map_append, map_fst_map_mark, map_fst_map_mark]

end PathQuery.StableSort
