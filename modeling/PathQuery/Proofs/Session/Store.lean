/-
Stores whose trees are those of their texts.

* **`QueryCache.IsSound`** — each stored tree is the one that its text is parsed as;
* **`QueryCache.exists_compile`** — compiling through a sound store is parsing;
* **`QueryCache.IsSound.compile`** — the store stays sound.
-/
import PathQuery.Proofs.Fields
import PathQuery.QueryCache

namespace PathQuery

namespace QueryCache

variable {c : QueryCache} {q : String} {tree : Expr} {stored : StoredTree}

/-- Each stored tree is the one that its text is parsed as. -/
def IsSound (c : QueryCache) : Prop :=
  ∀ q stored, c.get? q = some stored → Expr.parse q = .ok stored.tree

theorem isSound_empty : empty.IsSound := fun _ _ h => absurd h (by simp [get?, empty])

theorem isSound_clear (c : QueryCache) : c.clear.IsSound :=
  fun _ _ h => absurd h (by simp [get?, clear])

theorem insert_of_get?_eq_some (h : c.get? q = some stored) (tree : Expr) :
    c.insert q tree = (stored, c) := by
  rw [insert, h]

theorem insert_of_get?_eq_none (h : c.get? q = none) (tree : Expr) :
    c.insert q tree =
      (⟨c.nextId, tree⟩, ⟨Fields.insert q ⟨c.nextId, tree⟩ c.entries, c.nextId + 1⟩) := by
  rw [insert, h]

/-- Only the tree of a text may be stored for it. -/
theorem IsSound.insert (hc : c.IsSound) (h : Expr.parse q = .ok tree) :
    (c.insert q tree).2.IsSound := by
  cases hget : c.get? q with
  | some stored => rwa [insert_of_get?_eq_some hget]
  | none =>
    rw [insert_of_get?_eq_none hget]
    intro other stored hother
    rw [get?, Fields.lookup_insert] at hother
    split at hother
    case isTrue heq =>
      obtain rfl := Option.some.inj hother
      rw [heq, h]
    case isFalse => exact hc other stored hother

theorem compile_of_get?_eq_some (h : c.get? q = some stored) : c.compile q = (.ok stored, c) := by
  rw [compile, h]

/-- A text that cannot be parsed is not stored. -/
theorem compile_of_parse_eq_error (hc : c.IsSound) {e : ParseError}
    (h : Expr.parse q = .error e) : c.compile q = (.error e, c) := by
  cases hget : c.get? q with
  | some stored => exact absurd (hc q stored hget) (by simp [h])
  | none => rw [compile, hget, h]

/-- Compiling through a sound store is parsing. -/
theorem exists_compile (hc : c.IsSound) (h : Expr.parse q = .ok tree) :
    ∃ stored c', c.compile q = (.ok stored, c') ∧ stored.tree = tree ∧ c'.IsSound := by
  cases hget : c.get? q with
  | some stored =>
    have htree : stored.tree = tree := Except.ok.inj ((hc q stored hget).symm.trans h)
    exact ⟨stored, c, compile_of_get?_eq_some hget, htree, hc⟩
  | none =>
    refine ⟨(c.insert q tree).1, (c.insert q tree).2, ?_, ?_, hc.insert h⟩
    · rw [compile, hget, h]
    · rw [insert_of_get?_eq_none hget]

theorem IsSound.compile (hc : c.IsSound) (q : String) : (c.compile q).2.IsSound := by
  cases h : Expr.parse q with
  | error e => rwa [compile_of_parse_eq_error hc h]
  | ok tree =>
    obtain ⟨stored, c', hcompile, -, hsound⟩ := exists_compile hc h
    rwa [hcompile]

end QueryCache

end PathQuery
