/-
The order of integers and floats together.

Two integers are compared as they are, an integer and a float as floats.  Rounding keeps the order
of integers but may make two of them equal, and then a float between them is equal to both:

* **`Number.rank_le_of_isAtMost`** — what is at most as large is not rounded to more;
* **`Number.isAtMost_trans`, `Number.eqv_trans`** — so order and equality are transitive, unless the
  number in the middle is such a float;
* **`Number.le_natAbs_of_areBlurred`** — which takes integers from `2 ^ 53` on;
* **`Number.compare?_lt_trans`** — to be less is transitive all the same.
-/
import Mathlib.Tactic.ByContra
import PathQuery.Proofs.Number.Comparison
import PathQuery.Proofs.Number.Rounding

namespace PathQuery.Number

/-- The place of a number among the floats. -/
def rank (a : Number) : Int := a.toBinary64.rank

/-- A number is less than another one or equal to it. -/
def IsAtMost (a b : Number) : Prop := a.compare? b = some .lt ∨ a.compare? b = some .eq

/-- Two different integers, and a float to which both are equal. -/
inductive AreBlurred : Number → Number → Number → Prop where
  | intro {m n : Int64} {x : Binary64} (hne : m ≠ n) (hm : (integer m).eqv (.float x) = true)
    (hn : (integer n).eqv (.float x) = true) : AreBlurred (.integer m) (.float x) (.integer n)

variable {a b c : Number}

theorem compare?_integer (m n : Int64) :
    (integer m).compare? (.integer n) = some (compare m.toInt n.toInt) := rfl

/-- Unless both are integers, numbers are compared by their places among the floats. -/
theorem compare?_eq_rank (ha : a.isNaN = false) (hb : b.isNaN = false)
    (h : ∀ m n, a = .integer m → b ≠ .integer n) :
    a.compare? b = some (compare a.rank b.rank) := by
  rw [← isNaN_toBinary64] at ha hb
  cases a with
  | integer m =>
    cases b with
    | integer n => exact absurd rfl (h m n rfl)
    | float y => exact Binary64.compare?_eq_some ha hb
  | float x => cases b <;> exact Binary64.compare?_eq_some ha hb

theorem not_isNaN_of_compare? {o : Ordering} (h : a.compare? b = some o) :
    a.isNaN = false ∧ b.isNaN = false := by
  rw [← Bool.not_eq_true, ← Bool.not_eq_true, ← not_or, ← compare?_eq_none_iff, h]
  exact nofun

theorem IsAtMost.not_isNaN (h : a.IsAtMost b) : a.isNaN = false ∧ b.isNaN = false :=
  h.elim not_isNaN_of_compare? not_isNaN_of_compare?

theorem isAtMost_integer {m n : Int64} :
    (integer m).IsAtMost (.integer n) ↔ m.toInt ≤ n.toInt := by
  rw [IsAtMost, compare?_integer, Option.some_inj, Option.some_inj, Int.compare_eq_lt,
    Int.compare_eq_eq]
  omega

theorem isAtMost_iff_rank (ha : a.isNaN = false) (hb : b.isNaN = false)
    (h : ∀ m n, a = .integer m → b ≠ .integer n) : a.IsAtMost b ↔ a.rank ≤ b.rank := by
  rw [IsAtMost, compare?_eq_rank ha hb h, Option.some_inj, Option.some_inj, Int.compare_eq_lt,
    Int.compare_eq_eq]
  omega

theorem rank_le_of_isAtMost (h : a.IsAtMost b) : a.rank ≤ b.rank := by
  by_cases hboth : ∃ m n, a = .integer m ∧ b = .integer n
  · obtain ⟨m, n, rfl, rfl⟩ := hboth
    exact Binary64.rank_ofInt_mono (isAtMost_integer.1 h)
  · obtain ⟨ha, hb⟩ := h.not_isNaN
    exact (isAtMost_iff_rank ha hb fun m n hm hn => hboth ⟨m, n, hm, hn⟩).1 h

/-- The other way round what is at most as large is at least as large. -/
theorem isAtMost_swap_iff : b.IsAtMost a ↔ a.compare? b = some .gt ∨ a.compare? b = some .eq := by
  rw [IsAtMost, ← compare?_swap a b]
  cases a.compare? b with
  | none => simp
  | some o => cases o <;> decide

theorem eqv_iff_isAtMost : a.eqv b = true ↔ a.IsAtMost b ∧ b.IsAtMost a := by
  rw [isAtMost_swap_iff (a := a), IsAtMost, eqv, beq_iff_eq]
  cases a.compare? b with
  | none => simp
  | some o => cases o <;> decide

theorem not_isAtMost_iff (ha : a.isNaN = false) (hb : b.isNaN = false) :
    ¬ a.IsAtMost b ↔ b.compare? a = some .lt := by
  rw [IsAtMost, ← compare?_swap a b]
  cases h : a.compare? b with
  | none =>
    rw [compare?_eq_none_iff, ha, hb] at h
    simp at h
  | some o => cases o <;> decide

theorem AreBlurred.symm (h : AreBlurred a b c) : AreBlurred c b a := by
  cases h with
  | intro hne hm hn => exact .intro hne.symm hn hm

theorem rank_eq_of_eqv (h : a.eqv b = true) : a.rank = b.rank := by
  obtain ⟨hab, hba⟩ := eqv_iff_isAtMost.1 h
  exact Int.le_antisymm (rank_le_of_isAtMost hab) (rank_le_of_isAtMost hba)

/-- Integers that are blurred are large. -/
theorem le_natAbs_of_areBlurred {m n : Int64} {x : Binary64}
    (h : AreBlurred (.integer m) (.float x) (.integer n)) : 2 ^ 53 ≤ m.toInt.natAbs := by
  cases h with
  | intro hne hm hn =>
    have hrank : (Binary64.ofInt m.toInt).rank = (Binary64.ofInt n.toInt).rank :=
      (rank_eq_of_eqv hm).trans (rank_eq_of_eqv hn).symm
    by_contra hsmall
    exact Binary64.rank_ofInt_ne (mt Int64.toInt_inj.1 hne) (Nat.not_le.1 hsmall) hrank

/-- Order is transitive but for two integers in the wrong order, with a float equal to both in the
middle. -/
theorem isAtMost_trans (hab : a.IsAtMost b) (hbc : b.IsAtMost c) :
    a.IsAtMost c ↔ ¬ (AreBlurred a b c ∧ c.compare? a = some .lt) := by
  obtain ⟨ha, hb⟩ := hab.not_isNaN
  obtain ⟨-, hc⟩ := hbc.not_isNaN
  have hrank : a.rank ≤ c.rank := Int.le_trans (rank_le_of_isAtMost hab) (rank_le_of_isAtMost hbc)
  constructor
  · rintro hac ⟨-, hlt⟩
    exact (not_isAtMost_iff ha hc).2 hlt hac
  · intro h
    by_contra hac
    have hlt : c.compare? a = some .lt := (not_isAtMost_iff ha hc).1 hac
    refine h ⟨?_, hlt⟩
    -- Among the floats the two are in order, so both are integers and rounded alike.
    by_cases hboth : ∃ m n, a = .integer m ∧ c = .integer n
    · obtain ⟨m, n, rfl, rfl⟩ := hboth
      cases b with
      | integer k =>
        rw [isAtMost_integer] at hab hbc hac
        exact absurd (Int.le_trans hab hbc) hac
      | float x =>
        have hback : (integer n).rank ≤ (integer m).rank := rank_le_of_isAtMost (.inl hlt)
        have hm := rank_le_of_isAtMost hab
        have hn := rank_le_of_isAtMost hbc
        refine .intro ?_ ?_ ?_
        · rintro rfl
          exact hac (isAtMost_integer.2 (Int.le_refl _))
        · rw [eqv_iff_isAtMost]
          exact ⟨hab, (isAtMost_iff_rank hb ha nofun).2 (by omega)⟩
        · rw [eqv_iff_isAtMost]
          exact ⟨(isAtMost_iff_rank hc hb nofun).2 (by omega), hbc⟩
    · exact absurd ((isAtMost_iff_rank ha hc fun m n hm hn => hboth ⟨m, n, hm, hn⟩).2 hrank) hac

/-- Equality is transitive but for two different integers with a float equal to both. -/
theorem eqv_trans (hab : a.eqv b = true) (hbc : b.eqv c = true) :
    a.eqv c = true ↔ ¬ AreBlurred a b c := by
  rw [eqv_iff_isAtMost] at hab hbc ⊢
  rw [isAtMost_trans hab.1 hbc.1, isAtMost_trans hbc.2 hab.2]
  constructor
  · rintro ⟨hac, hca⟩ hblurred
    cases hblurred with
    | @intro m n x hne hm hn =>
      obtain hlt | hlt := Int.lt_or_gt_of_ne (mt Int64.toInt_inj.1 hne)
      · exact hca ⟨.intro hne.symm hn hm, congrArg some (Int.compare_eq_lt.2 hlt)⟩
      · exact hac ⟨.intro hne hm hn, congrArg some (Int.compare_eq_lt.2 hlt)⟩
  · exact fun h => ⟨fun hac => h hac.1, fun hca => h hca.1.symm⟩

/-- No number is blurred with one that it is less than. -/
theorem not_areBlurred_of_lt (h : a.compare? b = some .lt) : ¬ AreBlurred c a b := by
  rintro ⟨-, -, hequal⟩
  rw [eqv_comm, eqv, h] at hequal
  exact Bool.false_ne_true hequal

/-- To be less is transitive without exception. -/
theorem compare?_lt_trans (hab : a.compare? b = some .lt) (hbc : b.compare? c = some .lt) :
    a.compare? c = some .lt := by
  obtain ⟨ha, hb⟩ := not_isNaN_of_compare? hab
  obtain ⟨-, hc⟩ := not_isNaN_of_compare? hbc
  rw [← not_isAtMost_iff hc ha]
  intro hca
  have hcb : c.IsAtMost b :=
    (isAtMost_trans hca (.inl hab)).2 fun h => not_areBlurred_of_lt hab h.1
  exact (not_isAtMost_iff hc hb).2 hbc hcb

end PathQuery.Number
