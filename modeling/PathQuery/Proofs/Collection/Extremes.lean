/-
The smallest and the largest element.

The best element so far gives way to each later one that ranks better.  To rank equal is not
transitive, as values of different kinds do, and a NaN and any number; so an element could be passed
over that would have beaten the last one.  But to rank below is transitive, whatever the kinds:

* **`Value.rankAgainst_trans`** — a value that ranks below another one ranks below all that this one
  ranks below, and the same holds of ranking above;
* **`Collection.isBest_keepBetter`** — no element seen so far beats the best one, step by step;
* **`Collection.isExtreme_min_max`** — nor does any element of the array beat the last one.

Design notes: integers are compared exactly with each other and rounded with floats.  That rounding
keeps their order is what makes ranking below transitive over both.
-/
import Mathlib.Data.String.Basic
import PathQuery.Proofs.Collection.Sort
import PathQuery.Proofs.Number.Order

namespace PathQuery

namespace Value

variable {a b c : Value}

/-! ### Ranking below -/

/-- What ranks below what: numbers by value, strings by code points, false below true. -/
inductive RanksBelow : Value → Value → Prop where
  | numbers {m n : Number} (h : m.compare? n = some .lt) : RanksBelow (.number m) (.number n)
  | strings {s t : String} (h : s < t) : RanksBelow (.string s) (.string t)
  | booleans : RanksBelow (.boolean false) (.boolean true)

theorem ranksBelow_iff : RanksBelow a b ↔ a.rankAgainst b = .lt := by
  constructor
  · intro h
    cases h with
    | numbers h => rw [rankAgainst, h]; rfl
    | strings h => exact compare_lt_iff_lt.2 h
    | booleans => rfl
  · intro h
    cases a <;> cases b <;> try contradiction
    case number.number m n =>
      rw [rankAgainst] at h
      cases hmn : m.compare? n with
      | none =>
        rw [hmn] at h
        cases h
      | some o =>
        rw [hmn] at h
        exact .numbers (hmn.trans (congrArg some h))
    case string.string s t => exact .strings (compare_lt_iff_lt.1 h)
    case boolean.boolean s t => cases s <;> cases t <;> first | exact .booleans | contradiction

theorem RanksBelow.trans (h : RanksBelow a b) (h' : RanksBelow b c) : RanksBelow a c := by
  cases h with
  | numbers h =>
    cases h' with
    | numbers h' => exact .numbers (Number.compare?_lt_trans h h')
  | strings h =>
    cases h' with
    | strings h' => exact .strings (String.lt_trans h h')
  | booleans => cases h'

theorem rankAgainst_self (a : Value) : a.rankAgainst a = .eq := by
  have hswap := rankAgainst_swap a a
  cases h : a.rankAgainst a <;> rw [h] at hswap <;> first | rfl | contradiction

/-- To rank below is transitive, and so is to rank above. -/
theorem rankAgainst_trans {wanted : Ordering} (hwanted : wanted ≠ .eq)
    (h : a.rankAgainst b = wanted) (h' : b.rankAgainst c = wanted) : a.rankAgainst c = wanted := by
  cases wanted with
  | lt => exact ranksBelow_iff.1 ((ranksBelow_iff.2 h).trans (ranksBelow_iff.2 h'))
  | eq => exact absurd rfl hwanted
  | gt =>
    have hback : ∀ {u v : Value}, u.rankAgainst v = .gt ↔ RanksBelow v u := by
      intro u v
      rw [ranksBelow_iff, ← rankAgainst_swap u v]
      cases u.rankAgainst v <;> decide
    exact hback.2 ((hback.1 h').trans (hback.1 h))

end Value

namespace Collection

variable {wanted : Ordering} {seen items : List Value} {best : Option Value}

/-! ### The best element -/

/-- The better one of an element and the best one before it. -/
def keepBetter (wanted : Ordering) (best : Option Value) (item : Value) : Option Value :=
  match best with
  | some current => if item.rankAgainst current == wanted then some item else best
  | none => some item

theorem extreme?_eq_foldl (wanted : Ordering) (items : List Value) :
    extreme? wanted items = items.foldl (keepBetter wanted) none := rfl

/-- Of the elements seen so far, if there are any, `best` is one that none of them beats. -/
def IsBest (wanted : Ordering) (seen : List Value) : Option Value → Prop
  | none => seen = []
  | some best => best ∈ seen ∧ ∀ item ∈ seen, item.rankAgainst best ≠ wanted

/-- One more element keeps it so. -/
theorem isBest_keepBetter (hwanted : wanted ≠ .eq) (h : IsBest wanted seen best) (item : Value) :
    IsBest wanted (seen ++ [item]) (keepBetter wanted best item) := by
  have hself : item.rankAgainst item ≠ wanted := Value.rankAgainst_self item ▸ hwanted.symm
  cases best with
  | none =>
    obtain rfl : seen = [] := h
    exact ⟨List.mem_singleton_self item, fun u hu => List.mem_singleton.1 hu ▸ hself⟩
  | some current =>
    obtain ⟨hmem, hbest⟩ := h
    rw [keepBetter]
    split
    case isTrue hbetter =>
      refine ⟨List.mem_append_right _ (List.mem_singleton_self item), fun u hu hbeats => ?_⟩
      obtain hu | hu := List.mem_append.1 hu
      · -- What beats the new element beats the old one too.
        exact hbest u hu (Value.rankAgainst_trans hwanted hbeats (eq_of_beq hbetter))
      · exact hself (List.mem_singleton.1 hu ▸ hbeats)
    case isFalse hnot =>
      refine ⟨List.mem_append_left _ hmem, fun u hu hbeats => ?_⟩
      obtain hu | hu := List.mem_append.1 hu
      · exact hbest u hu hbeats
      · exact hnot (beq_iff_eq.2 (List.mem_singleton.1 hu ▸ hbeats))

/-- So do all elements that follow. -/
theorem isBest_foldl (hwanted : wanted ≠ .eq) (items : List Value) (h : IsBest wanted seen best) :
    IsBest wanted (seen ++ items) (items.foldl (keepBetter wanted) best) := by
  induction items generalizing seen best with
  | nil =>
    rw [List.append_nil]
    exact h
  | cons item items ih =>
    have hrest := ih (isBest_keepBetter hwanted h item)
    rwa [List.append_assoc, List.singleton_append] at hrest

theorem isBest_extreme? (hwanted : wanted ≠ .eq) (items : List Value) :
    IsBest wanted items (extreme? wanted items) := by
  rw [extreme?_eq_foldl]
  have hnone : IsBest wanted [] none := rfl
  exact isBest_foldl hwanted items hnone

/-! ### The methods -/

/-- The extreme of no elements is null; that of others is one of them which none of them beats. -/
inductive IsExtreme (wanted : Ordering) : List Value → Value → Prop where
  | null : IsExtreme wanted [] .null
  | element {items : List Value} {best : Value} (hmem : best ∈ items)
      (hbest : ∀ item ∈ items, item.rankAgainst best ≠ wanted) : IsExtreme wanted items best

theorem isExtreme_extreme? (hwanted : wanted ≠ .eq) (items : List Value) :
    IsExtreme wanted items ((extreme? wanted items).getD .null) := by
  have hbest := isBest_extreme? hwanted items
  cases h : extreme? wanted items with
  | none =>
    rw [h] at hbest
    obtain rfl : items = [] := hbest
    exact .null
  | some best =>
    rw [h] at hbest
    exact .element hbest.1 hbest.2

/-- Of any array, also one of mixed kinds, no element ranks below the smallest one, and none ranks
above the largest one.  They run nothing and take no notice of arguments. -/
theorem isExtreme_min_max {σ : Type} (select : Select σ) (items args : List Value) (w : World σ) :
    (∃ (run : Eval σ Value) (v : Value), arrayMethod? select "min" items args = some run ∧
      run.runIn w = (.ok v, w) ∧ IsExtreme .lt items v) ∧
    ∃ (run : Eval σ Value) (v : Value), arrayMethod? select "max" items args = some run ∧
      run.runIn w = (.ok v, w) ∧ IsExtreme .gt items v :=
  ⟨⟨_, _, rfl, rfl, isExtreme_extreme? (by decide) items⟩,
    ⟨_, _, rfl, rfl, isExtreme_extreme? (by decide) items⟩⟩

/-- A null ranks beside both integers, and the smaller one is still found behind it. -/
example : Value.null.rankAgainst (.integer 2) = .eq ∧ Value.null.rankAgainst (.integer 1) = .eq ∧
    extreme? .lt [.integer 2, .null, .integer 1] = some (.integer 1) := ⟨rfl, rfl, rfl⟩

end Collection

end PathQuery
