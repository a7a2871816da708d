/-
Sorting numbers.

Integers and floats together are in a total order as long as no float is equal to two different
integers.  Such a float, which only integers beyond `2 ^ 53` can have, is what keeps `==` and `<=`
from being transitive, and lets sorting leave a larger integer in front of a smaller one:

* **`numbers_in_order_unless_blurred`** — three numbers are in order exactly if the one in the middle
  is no such float, and an array without them is sorted;
* **`exists_numbers_out_of_order`** — three numbers that sorting leaves as they are, with the last one
  less than the first.
-/
import PathQuery.Proofs.Collection.Sort
import PathQuery.Proofs.Number.Order
import PathQuery.Proofs.Value.Ordering

namespace PathQuery

open ComparisonOp

namespace Number

variable {a b : Number}

theorem ranked_numbers (a b : Number) : (Value.number a).Ranked (.number b) (a.compare? b) :=
  .numbers rfl rfl

theorem relates_equal : equal.Relates (.number a) (.number b) ↔ a.eqv b = true := by
  rw [relates_equal_iff (ranked_numbers a b), eqv, beq_iff_eq]

theorem relates_less : less.Relates (.number a) (.number b) ↔ a.compare? b = some .lt := by
  rw [relates_iff (ranked_numbers a b) (by decide)]
  cases a.compare? b with
  | none => decide
  | some c => cases c <;> decide

theorem relates_lessEqual : lessEqual.Relates (.number a) (.number b) ↔ a.IsAtMost b := by
  rw [relates_iff (ranked_numbers a b) (by decide), IsAtMost]
  cases a.compare? b with
  | none => decide
  | some c => cases c <;> decide

/-- Sorting orders numbers as the operators do. -/
theorem compare?_eq_rankAgainst (ha : a.isNaN = false) (hb : b.isNaN = false) :
    a.compare? b = some ((Value.number a).rankAgainst (.number b)) := by
  rw [Value.rankAgainst]
  cases h : a.compare? b with
  | none =>
    rw [compare?_eq_none_iff, ha, hb] at h
    simp at h
  | some o => rfl

theorem rankAgainst_ne_gt_iff (ha : a.isNaN = false) (hb : b.isNaN = false) :
    (Value.number a).rankAgainst (.number b) ≠ .gt ↔ a.IsAtMost b := by
  rw [IsAtMost, compare?_eq_rankAgainst ha hb]
  cases (Value.number a).rankAgainst (.number b) <;> decide

theorem rankAgainst_eq_lt_iff (ha : a.isNaN = false) (hb : b.isNaN = false) :
    (Value.number a).rankAgainst (.number b) = .lt ↔ ¬ b.IsAtMost a := by
  rw [not_isAtMost_iff hb ha, compare?_eq_rankAgainst ha hb, Option.some_inj]

end Number

open Number Collection

/-- Numbers are ranked if no float among them is equal to two different integers among them. -/
theorem Value.areRanked_of_not_areBlurred {items : List Value}
    (hnumbers : ∀ v ∈ items, ∃ n : Number, v = .number n ∧ n.isNaN = false)
    (hclear : ∀ a b c : Number, .number a ∈ items → .number b ∈ items → .number c ∈ items →
      ¬ AreBlurred a b c) :
    Value.AreRanked items := by
  intro u hu v hv w hw
  obtain ⟨a, rfl, ha⟩ := hnumbers u hu
  obtain ⟨b, rfl, hb⟩ := hnumbers v hv
  obtain ⟨c, rfl, hc⟩ := hnumbers w hw
  rw [Ne, rankAgainst_eq_lt_iff hb ha, Ne, rankAgainst_eq_lt_iff hc hb, Ne,
    rankAgainst_eq_lt_iff hc ha, not_not, not_not, not_not]
  intro hab hbc
  exact (isAtMost_trans hab hbc).2 fun h => hclear a b c hu hv hw h.1

/-- An array of such numbers is sorted. -/
theorem Collection.exists_sortItems_of_not_areBlurred {items : List Value}
    (hnumbers : ∀ v ∈ items, ∃ n : Number, v = .number n ∧ n.isNaN = false)
    (hclear : ∀ a b c : Number, .number a ∈ items → .number b ∈ items → .number c ∈ items →
      ¬ AreBlurred a b c) :
    ∃ sorted, sortItems items = some sorted ∧
      sorted.Pairwise fun earlier later => ¬ less.Relates later earlier := by
  obtain ⟨sorted, hsort, hpairwise⟩ :=
    exists_sortItems (Value.areRanked_of_not_areBlurred hnumbers hclear)
  have hmem : ∀ v ∈ sorted, v ∈ items := fun v hv => (perm_sortItems hsort).mem_iff.1 hv
  refine ⟨sorted, hsort, hpairwise.imp_of_mem fun {u v} hu hv hfollow hless => ?_⟩
  obtain ⟨a, rfl, ha⟩ := hnumbers u (hmem u hu)
  obtain ⟨b, rfl, hb⟩ := hnumbers v (hmem v hv)
  rw [Ne, rankAgainst_eq_lt_iff hb ha, not_not] at hfollow
  exact (not_isAtMost_iff ha hb).2 (relates_less.1 hless) hfollow

/-- Of the numbers of an array, those that are equal or in order one after the other are so from end
to end, to the operators and to sorting, unless the one in the middle is a float to which two
different integers at the ends are equal, both of them `2 ^ 53` or more from zero.  If there is no
such float in the array, it is sorted with no number before a smaller one. -/
theorem numbers_in_order_unless_blurred {σ : Type} (select : Select σ) (items : List Value)
    (w : World σ) (hnumbers : ∀ v ∈ items, ∃ n : Number, v = .number n ∧ n.isNaN = false) :
    (∀ a b c : Number, .number a ∈ items → .number b ∈ items → .number c ∈ items →
      (equal.Relates (.number a) (.number b) → equal.Relates (.number b) (.number c) →
        (equal.Relates (.number a) (.number c) ↔ ¬ AreBlurred a b c)) ∧
      (lessEqual.Relates (.number a) (.number b) → lessEqual.Relates (.number b) (.number c) →
        (lessEqual.Relates (.number a) (.number c) ↔
          ¬ (AreBlurred a b c ∧ less.Relates (.number c) (.number a)))) ∧
      ((Value.number a).rankAgainst (.number b) ≠ .gt →
        (Value.number b).rankAgainst (.number c) ≠ .gt →
        ((Value.number a).rankAgainst (.number c) ≠ .gt ↔
          ¬ (AreBlurred a b c ∧ less.Relates (.number c) (.number a))))) ∧
    (∀ (m n : Int64) (x : Binary64), AreBlurred (.integer m) (.float x) (.integer n) →
      2 ^ 53 ≤ m.toInt.natAbs ∧ 2 ^ 53 ≤ n.toInt.natAbs) ∧
    ((∀ a b c : Number, .number a ∈ items → .number b ∈ items → .number c ∈ items →
        ¬ AreBlurred a b c) →
      ∃ run sorted, arrayMethod? select "sort" items [] = some run ∧
        run.runIn w = (.ok (.array sorted), w) ∧ sorted.Perm items ∧
        sorted.Pairwise fun earlier later => ¬ less.Relates later earlier) := by
  have hordinary : ∀ n : Number, .number n ∈ items → n.isNaN = false := by
    intro n hn
    obtain ⟨n', hsame, hnan⟩ := hnumbers _ hn
    exact Value.number.inj hsame ▸ hnan
  refine ⟨fun a b c ha hb hc => ⟨?equal, ?lessEqual, ?rank⟩, ?large, ?sort⟩
  case equal =>
    rw [relates_equal, relates_equal, relates_equal]
    exact eqv_trans
  case lessEqual =>
    rw [relates_lessEqual, relates_lessEqual, relates_lessEqual, relates_less]
    exact isAtMost_trans
  case rank =>
    have hna := hordinary a ha
    have hnb := hordinary b hb
    have hnc := hordinary c hc
    rw [rankAgainst_ne_gt_iff hna hnb, rankAgainst_ne_gt_iff hnb hnc,
      rankAgainst_ne_gt_iff hna hnc, relates_less]
    exact isAtMost_trans
  case large => exact fun m n x h => ⟨le_natAbs_of_areBlurred h, le_natAbs_of_areBlurred h.symm⟩
  case sort =>
    intro hclear
    obtain ⟨sorted, hsort, hpairwise⟩ := exists_sortItems_of_not_areBlurred hnumbers hclear
    refine ⟨sort select items [], sorted, rfl, ?_, perm_sortItems hsort, hpairwise⟩
    rw [runIn_sort, hsort]

/-- `2 ^ 53` as an integer and as a float, with a larger integer that the float is not equal to. -/
theorem numbers_in_order_unless_blurred_of_large :
    let a : Number := .integer 9007199254740992
    let b : Number := .float ⟨0x4340000000000000⟩
    let c : Number := .integer 9007199254740994
    (lessEqual.Relates (.number a) (.number b) ∧ lessEqual.Relates (.number b) (.number c) ∧
      ¬ AreBlurred a b c) ∧
    ∀ {σ : Type} (select : Select σ) (w : World σ), lessEqual.Relates (.number a) (.number c) ∧
      ∃ run sorted, arrayMethod? select "sort" [.number c, .number b, .number a] [] = some run ∧
        run.runIn w = (.ok (.array sorted), w) ∧
        sorted.Perm [.number c, .number b, .number a] ∧
        sorted.Pairwise fun earlier later => ¬ less.Relates later earlier := by
  intro a b c
  have hdistinct : c.eqv b = false := by decide +kernel
  -- Of the two integers only one is equal to the float.
  have hclear : ∀ x y z : Number, .number x ∈ [Value.number c, .number b, .number a] →
      .number y ∈ [Value.number c, .number b, .number a] →
      .number z ∈ [Value.number c, .number b, .number a] → ¬ AreBlurred x y z := by
    rintro _ _ _ hx hy hz ⟨hne, hm, hn⟩
    simp only [List.mem_cons, Value.number.injEq, List.not_mem_nil, or_false, a, b, c, reduceCtorEq,
      false_or, integer.injEq, float.injEq] at hx hy hz
    subst hy
    rcases hx with rfl | rfl
    · rw [hdistinct] at hm
      exact nomatch hm
    · rcases hz with rfl | rfl
      · rw [hdistinct] at hn
        exact nomatch hn
      · exact hne rfl
  have hnumbers : ∀ v ∈ [Value.number c, .number b, .number a],
      ∃ n : Number, v = .number n ∧ n.isNaN = false := by
    intro v hv
    simp only [List.mem_cons, List.not_mem_nil, or_false] at hv
    rcases hv with rfl | rfl | rfl <;> exact ⟨_, rfl, by decide⟩
  have hab : lessEqual.Relates (.number a) (.number b) :=
    relates_lessEqual.2 (.inr (by decide +kernel))
  have hbc : lessEqual.Relates (.number b) (.number c) :=
    relates_lessEqual.2 (.inl (by decide +kernel))
  have hblurred : ¬ AreBlurred a b c := hclear a b c (by simp) (by simp) (by simp)
  refine ⟨⟨hab, hbc, hblurred⟩, fun select w => ?_⟩
  obtain ⟨htrans, -, hsort⟩ := numbers_in_order_unless_blurred select _ w hnumbers
  obtain ⟨-, hlessEqual, -⟩ := htrans a b c (by simp) (by simp) (by simp)
  exact ⟨(hlessEqual hab hbc).2 fun h => hblurred h.1, hsort hclear⟩

/-- Between the floats next to each other at `2 ^ 53` there is an odd integer, which is rounded down.
It is equal to the float and stays in front of the integer that is the float. -/
theorem exists_numbers_out_of_order :
    let a : Number := .integer 9007199254740993
    let b : Number := .float ⟨0x4340000000000000⟩
    let c : Number := .integer 9007199254740992
    (equal.Relates (.number a) (.number b) ∧ equal.Relates (.number b) (.number c) ∧
      ¬ equal.Relates (.number a) (.number c)) ∧
    (lessEqual.Relates (.number a) (.number b) ∧ lessEqual.Relates (.number b) (.number c) ∧
      ¬ lessEqual.Relates (.number a) (.number c)) ∧
    less.Relates (.number c) (.number a) ∧
    ∀ {σ : Type} (select : Select σ) (w : World σ),
      ∃ run, arrayMethod? select "sort" [.number a, .number b, .number c] [] = some run ∧
        run.runIn w = (.ok (.array [.number a, .number b, .number c]), w) := by
  intro a b c
  have hab : a.compare? b = some .eq := by decide +kernel
  have hbc : b.compare? c = some .eq := by decide +kernel
  have hca : c.compare? a = some .lt := by decide +kernel
  have hac : a.compare? c = some .gt := by decide +kernel
  rw [relates_equal, relates_equal, relates_equal, relates_lessEqual, relates_lessEqual,
    relates_lessEqual, relates_less, eqv, eqv, eqv, IsAtMost, IsAtMost, IsAtMost, hab, hbc, hac]
  refine ⟨by decide, by decide, hca, fun select w => ⟨_, rfl, ?_⟩⟩
  have hba : (Value.number b).rankAgainst (.number a) = .eq := by decide +kernel
  have hcb : (Value.number c).rankAgainst (.number b) = .eq := by decide +kernel
  rw [runIn_sort, sortItems_of_isChain (by simp) (by simp [hba, hcb])]

end PathQuery
