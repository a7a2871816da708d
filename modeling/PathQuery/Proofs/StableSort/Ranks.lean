/-
Lists in the order of ranks.

* **`StableSort.byRank`** — a list in the order of its ranks, which of one rank stays in its order;
* **`StableSort.eq_byRank`** — it is the only list in order with the same elements of each rank;
* **`StableSort.merge_eq_byRank`** — lists in order are merged to one;
* **`StableSort.Ranks`** — a comparison that is the one of ranks;
* **`StableSort.ranks_countP`** — such ranks exist if not being less is transitive.

Design notes: ranks are integers, so that the opposite order is that of the negative ranks.
-/
import Mathlib.Data.List.Sort
import Mathlib.Data.List.Count
import PathQuery.StableSort

namespace PathQuery.StableSort

variable {α β : Type} {rank : α → ℤ} {as bs : List α}

/-- A list in the order of its ranks, elements of one rank in the order they had. -/
def byRank (rank : α → ℤ) (as : List α) : List α :=
  as.mergeSort fun a b => rank a ≤ rank b

theorem perm_byRank (rank : α → ℤ) (as : List α) : (byRank rank as).Perm as :=
  List.mergeSort_perm as _

theorem rank_le_trans (a b c : α) (hab : decide (rank a ≤ rank b) = true)
    (hbc : decide (rank b ≤ rank c) = true) : decide (rank a ≤ rank c) = true :=
  decide_eq_true ((of_decide_eq_true hab).trans (of_decide_eq_true hbc))

theorem rank_le_total (a b : α) :
    (decide (rank a ≤ rank b) || decide (rank b ≤ rank a)) = true := by
  rw [Bool.or_eq_true, decide_eq_true_iff, decide_eq_true_iff]
  exact le_total _ _

theorem pairwise_byRank (rank : α → ℤ) (as : List α) :
    (byRank rank as).Pairwise fun a b => rank a ≤ rank b :=
  (List.pairwise_mergeSort rank_le_trans rank_le_total as).imp of_decide_eq_true

/-- Elements none of which is of a higher rank than another one keep their order. -/
theorem filter_byRank_of_le {p : α → Bool}
    (h : ∀ a ∈ as, ∀ b ∈ as, p a = true → p b = true → rank a ≤ rank b) :
    (byRank rank as).filter p = as.filter p := by
  have hpairwise : (as.filter p).Pairwise fun a b => decide (rank a ≤ rank b) = true := by
    refine List.pairwise_of_forall_mem_list fun a ha b hb => decide_eq_true ?_
    obtain ⟨ha, hpa⟩ := List.mem_filter.1 ha
    obtain ⟨hb, hpb⟩ := List.mem_filter.1 hb
    exact h a ha b hb hpa hpb
  have hsublist := List.sublist_mergeSort rank_le_trans rank_le_total hpairwise List.filter_sublist
  have hfilter := hsublist.filter p
  rw [List.filter_filter, show (fun a => p a && p a) = p from funext fun _ => Bool.and_self _]
    at hfilter
  exact (hfilter.eq_of_length ((perm_byRank rank as).filter _).length_eq.symm).symm

theorem filter_byRank (rank : α → ℤ) (as : List α) (k : ℤ) :
    (byRank rank as).filter (rank · = k) = as.filter (rank · = k) :=
  filter_byRank_of_le fun _ _ _ _ ha hb =>
    ((of_decide_eq_true ha).trans (of_decide_eq_true hb).symm).le

/-- Lists in order with the same elements of each rank are the same. -/
theorem eq_of_filter_eq (has : as.Pairwise fun a b => rank a ≤ rank b)
    (hbs : bs.Pairwise fun a b => rank a ≤ rank b)
    (h : ∀ k, as.filter (rank · = k) = bs.filter (rank · = k)) : as = bs := by
  induction as generalizing bs with
  | nil =>
    cases bs with
    | nil => rfl
    | cons b bs => simpa using h (rank b)
  | cons a as ih =>
    cases bs with
    | nil => simpa using h (rank a)
    | cons b bs =>
      obtain ⟨hfirst, hrest⟩ := List.pairwise_cons.1 has
      obtain ⟨hfirst', hrest'⟩ := List.pairwise_cons.1 hbs
      have hba : rank b ≤ rank a := by
        have hmem : a ∈ (b :: bs).filter (rank · = rank a) := by simp [← h (rank a)]
        obtain rfl | hmem := List.mem_cons.1 (List.mem_filter.1 hmem).1
        · exact le_rfl
        · exact hfirst' a hmem
      have hab : rank a ≤ rank b := by
        have hmem : b ∈ (a :: as).filter (rank · = rank b) := by simp [h (rank b)]
        obtain rfl | hmem := List.mem_cons.1 (List.mem_filter.1 hmem).1
        · exact le_rfl
        · exact hfirst b hmem
      have hrank : rank b = rank a := le_antisymm hba hab
      have hheads := h (rank a)
      rw [List.filter_cons, if_pos (decide_eq_true rfl), List.filter_cons,
        if_pos (decide_eq_true hrank)] at hheads
      obtain ⟨rfl, -⟩ := List.cons.inj hheads
      refine congrArg (a :: ·) (ih hrest hrest' fun k => ?_)
      have hk := h k
      rw [List.filter_cons, List.filter_cons] at hk
      split at hk
      · exact (List.cons.inj hk).2
      · exact hk

theorem eq_byRank (hbs : bs.Pairwise fun a b => rank a ≤ rank b)
    (h : ∀ k, bs.filter (rank · = k) = as.filter (rank · = k)) : bs = byRank rank as :=
  eq_of_filter_eq hbs (pairwise_byRank rank as) fun k => (h k).trans (filter_byRank rank as k).symm

theorem byRank_eq_self (h : as.Pairwise fun a b => rank a ≤ rank b) : byRank rank as = as :=
  (eq_byRank h fun _ => rfl).symm

theorem byRank_congr (h : ∀ k, as.filter (rank · = k) = bs.filter (rank · = k)) :
    byRank rank as = byRank rank bs :=
  eq_byRank (pairwise_byRank rank as) fun k => (filter_byRank rank as k).trans (h k)

/-- Parts may be put in order beforehand. -/
theorem byRank_append_left (rank : α → ℤ) (as bs : List α) :
    byRank rank (byRank rank as ++ bs) = byRank rank (as ++ bs) :=
  byRank_congr fun k => by rw [List.filter_append, filter_byRank, List.filter_append]

theorem byRank_append (rank : α → ℤ) (as bs : List α) :
    byRank rank (byRank rank as ++ byRank rank bs) = byRank rank (as ++ bs) :=
  byRank_congr fun k => by
    rw [List.filter_append, filter_byRank, filter_byRank, List.filter_append]

theorem map_byRank (f : β → α) (bs : List β) :
    (byRank (rank ∘ f) bs).map f = byRank rank (bs.map f) :=
  List.map_mergeSort fun _ _ _ _ => rfl

/-- In the opposite order and read from behind a list is in order. -/
theorem reverse_byRank_neg (rank : α → ℤ) (as : List α) :
    (byRank (fun a => -rank a) as.reverse).reverse = byRank rank as := by
  refine eq_byRank (List.pairwise_reverse.2 ?_) fun k => ?_
  · exact (pairwise_byRank (fun a => -rank a) _).imp fun h => Int.neg_le_neg_iff.1 h
  · have hneg := filter_byRank (fun a => -rank a) as.reverse (-k)
    simp only [Int.neg_inj] at hneg
    rw [List.filter_reverse, hneg, List.filter_reverse, List.reverse_reverse]

/-! ### Merging -/

/-- Of elements of one rank, those of the first list come first. -/
theorem filter_merge {le : α → α → Bool} (has : as.Pairwise fun a b => rank a ≤ rank b)
    (hle : ∀ a ∈ as, ∀ b ∈ bs, le a b = decide (rank a ≤ rank b)) (k : ℤ) :
    (as.merge bs le).filter (rank · = k) = as.filter (rank · = k) ++ bs.filter (rank · = k) := by
  induction as, bs using List.merge.induct le with
  | case1 bs => rw [List.nil_merge, List.filter_nil, List.nil_append]
  | case2 as => rw [List.merge_right, List.filter_nil, List.append_nil]
  | case3 a as b bs hab ih =>
    rw [List.cons_merge_cons, if_pos hab, List.filter_cons, List.filter_cons,
      ih has.of_cons fun x hx => hle x (List.mem_cons_of_mem _ hx)]
    split
    · rw [List.cons_append]
    · rfl
  | case4 a as b bs hab ih =>
    rw [List.cons_merge_cons, if_neg hab, List.filter_cons,
      ih has fun x hx y hy => hle x hx y (List.mem_cons_of_mem _ hy), List.filter_cons (x := b)]
    rw [hle a List.mem_cons_self b List.mem_cons_self, decide_eq_true_iff, not_le] at hab
    split
    case isFalse => rfl
    case isTrue hk =>
      -- All of the first list have higher ranks than `b`.
      have hnone : (a :: as).filter (rank · = k) = [] := by
        refine List.filter_eq_nil_iff.2 fun x hx hxk => ?_
        have hax : rank a ≤ rank x := by
          obtain rfl | hx := List.mem_cons.1 hx
          · exact le_rfl
          · exact List.rel_of_pairwise_cons has hx
        have hbk := of_decide_eq_true hk
        have hxk := of_decide_eq_true hxk
        omega
      rw [hnone, List.nil_append, List.nil_append]

theorem merge_eq_byRank {le : α → α → Bool} (has : as.Pairwise fun a b => rank a ≤ rank b)
    (hbs : bs.Pairwise fun a b => rank a ≤ rank b)
    (hle : ∀ a ∈ as, ∀ b ∈ bs, le a b = decide (rank a ≤ rank b)) :
    as.merge bs le = byRank rank (as ++ bs) := by
  refine eq_byRank ?_ fun k => (filter_merge has hle k).trans (List.filter_append ..).symm
  have hsame : as.merge bs le = as.merge bs fun a b => rank a ≤ rank b := by
    simpa using List.map_merge (f := id) hle
  rw [hsame]
  exact (List.pairwise_merge rank_le_trans rank_le_total _ _ (has.imp decide_eq_true)
    (hbs.imp decide_eq_true)).imp of_decide_eq_true

/-! ### Comparisons -/

/-- On the elements of a list the comparison is that of their ranks. -/
def Ranks (rank : α → ℤ) (less : α → α → Bool) (as : List α) : Prop :=
  ∀ a ∈ as, ∀ b ∈ as, less a b = decide (rank a < rank b)

variable {less : α → α → Bool}

theorem Ranks.mono (h : Ranks rank less as) (hsub : bs ⊆ as) : Ranks rank less bs :=
  fun a ha b hb => h a (hsub ha) b (hsub hb)

/-- Not being less is not being of a lower rank. -/
theorem Ranks.not_less (h : Ranks rank less as) {a b : α} (ha : a ∈ as) (hb : b ∈ as) :
    (!less b a) = decide (rank a ≤ rank b) := by
  rw [h b hb a ha, ← decide_not, decide_eq_decide, not_lt]

/-- How many elements are less than one is its rank, if not being less is transitive. -/
theorem ranks_countP (hasymm : ∀ a ∈ as, ∀ b ∈ as, less a b = true → less b a = false)
    (htrans : ∀ a ∈ as, ∀ b ∈ as, ∀ c ∈ as,
      less b a = false → less c b = false → less c a = false) :
    Ranks (fun a => (as.countP (less · a) : ℤ)) less as := by
  intro a ha b hb
  rw [Bool.eq_iff_iff, decide_eq_true_iff, Int.ofNat_lt]
  -- What is less than one element is less than those that are not less than it.
  have hbelow {a b : α} (ha : a ∈ as) (hb : b ∈ as) (hba : less b a = false) :
      ∀ c ∈ as, less c a = true → less c b = true := by
    intro c hc hca
    refine Bool.eq_true_of_not_eq_false fun hcb => ?_
    exact Bool.false_ne_true ((htrans a ha b hb c hc hba hcb).symm.trans hca)
  constructor
  · intro hab
    have hba := hasymm a ha b hb hab
    have haa : less a a = false := Bool.eq_false_iff.2 fun haa =>
      Bool.false_ne_true ((hasymm a ha a ha haa).symm.trans haa)
    have hsplit := List.countP_eq_countP_filter_add as (less · b) (less · a)
    have hall : (as.filter (less · a)).countP (less · b) = as.countP (less · a) := by
      rw [List.countP_eq_length_filter (p := (less · a)), List.countP_eq_length]
      exact fun c hc => hbelow ha hb hba c (List.mem_filter.1 hc).1 (List.mem_filter.1 hc).2
    have hself : 0 < (as.filter fun c => !less c a).countP (less · b) :=
      List.countP_pos_iff.2 ⟨a, List.mem_filter.2 ⟨ha, by rw [haa, Bool.not_false]⟩, hab⟩
    omega
  · intro hlt
    refine Bool.eq_true_of_not_eq_false fun hab => ?_
    exact absurd (List.countP_mono_left (hbelow hb ha hab)) (Nat.not_le.2 hlt)

end PathQuery.StableSort
