/-
What evaluations end with.

* **`Eval.EndsIn`** — an evaluation ends with an answer and in a world that have a property;
* **`Eval.Gives`** — it gives a lazy value as it is;
* **`Eval.gives_bind`, `Eval.gives_unless`** — the lazy values of a sequence of two evaluations;
* **`Eval.IsPlain`** — it never gives a lazy value.

Design notes: an evaluation that fails does not end with an answer.
-/
import PathQuery.Proofs.Evaluation.Runs

namespace PathQuery.Eval

variable {σ α β : Type}

/-! ### Ends -/

/-- An evaluation ends with an answer, and `Q` holds of it and of the world behind. -/
def EndsIn (m : Eval σ α) (w : World σ) (Q : α → World σ → Prop) : Prop :=
  match m.runIn w with
  | (.ok a, w') => Q a w'
  | (.error _, _) => False

/-- An evaluation gives a lazy value. -/
def Gives (m : Eval σ Value) (w : World σ) (lazy : LazyRef) : Prop :=
  m.EndsIn w fun v _ => v = .deferred lazy

variable {w : World σ} {Q : α → World σ → Prop} {lazy : LazyRef}

@[simp] theorem endsIn_pure {a : α} : (pure a : Eval σ α).EndsIn w Q ↔ Q a w := Iff.rfl

@[simp] theorem gives_pure {v : Value} :
    (pure v : Eval σ Value).Gives w lazy ↔ v = .deferred lazy := Iff.rfl

@[simp] theorem not_gives_throw {e : EvalError} : ¬ (throw e : Eval σ Value).Gives w lazy := id

theorem endsIn_get {Q : World σ → World σ → Prop} :
    (get : Eval σ (World σ)).EndsIn w Q ↔ Q w w := Iff.rfl

theorem endsIn_bind {m : Eval σ α} {f : α → Eval σ β} {Q : β → World σ → Prop} :
    (m >>= f).EndsIn w Q ↔ m.EndsIn w fun a w' => (f a).EndsIn w' Q := by
  rw [EndsIn, EndsIn, runIn_bind]
  rcases m.runIn w with ⟨e | a, w'⟩ <;> exact Iff.rfl

theorem endsIn_congr {m : Eval σ α} {Q' : α → World σ → Prop} (h : ∀ a w', Q a w' ↔ Q' a w') :
    m.EndsIn w Q ↔ m.EndsIn w Q' := by
  rw [EndsIn, EndsIn]
  rcases m.runIn w with ⟨e | a, w'⟩
  · exact Iff.rfl
  · exact h a w'

theorem EndsIn.exists_runIn {m : Eval σ α} (h : m.EndsIn w Q) :
    ∃ a w', m.runIn w = (.ok a, w') ∧ Q a w' := by
  rw [EndsIn] at h
  rcases hrun : m.runIn w with ⟨e | a, w'⟩ <;> rw [hrun] at h
  · exact h.elim
  · exact ⟨a, w', rfl, h⟩

/-- What holds at the end for some `i` may be chosen before. -/
theorem endsIn_exists {ι : Type} {m : Eval σ α} {Q : ι → α → World σ → Prop} :
    (m.EndsIn w fun a w' => ∃ i, Q i a w') ↔ ∃ i, m.EndsIn w (Q i) := by
  simp only [EndsIn]
  rcases m.runIn w with ⟨e | a, w'⟩
  · exact ⟨False.elim, fun h => h.choose_spec⟩
  · exact Iff.rfl

theorem gives_iff {m : Eval σ Value} : m.Gives w lazy ↔ (m.runIn w).1 = .ok (.deferred lazy) := by
  rw [Gives, EndsIn]
  rcases m.runIn w with ⟨e | v, w'⟩
  · exact iff_of_false id (by simp)
  · exact (Except.ok.injEq v (.deferred lazy) ▸ Iff.rfl)

theorem endsIn_or {m : Eval σ α} {Q' : α → World σ → Prop} :
    (m.EndsIn w fun a w' => Q a w' ∨ Q' a w') ↔ m.EndsIn w Q ∨ m.EndsIn w Q' := by
  simp only [EndsIn]
  rcases m.runIn w with ⟨e | a, w'⟩
  · exact (or_self_iff (a := False)).symm
  · exact Iff.rfl

/-- What is behind the first part gives the lazy values. -/
theorem gives_bind {ι : Type} {m : Eval σ α} {f : α → Eval σ Value} {Q : ι → α → World σ → Prop}
    (h : ∀ a w', (f a).Gives w' lazy ↔ ∃ i, Q i a w') :
    (m >>= f).Gives w lazy ↔ ∃ i, m.EndsIn w (Q i) := by
  rw [← endsIn_exists]
  exact endsIn_bind.trans (endsIn_congr h)

/-- A value is passed on, or another one is given in its place if it has a property that no lazy
value has. -/
theorem gives_unless {ι : Type} {m n : Eval σ Value} {f : Value → Eval σ Value} {p : Value → Prop}
    {A : ι → Prop} {B : ι → World σ → Prop} (hlazy : ¬ p (.deferred lazy))
    (hleft : ∀ v, p v → f v = n) (hkept : ∀ v, ¬ p v → f v = pure v)
    (hm : m.Gives w lazy ↔ ∃ i, A i) (hn : ∀ w', n.Gives w' lazy ↔ ∃ i, B i w') :
    (m >>= f).Gives w lazy ↔ ∃ i, A i ∨ m.EndsIn w fun v w' => p v ∧ B i w' := by
  rw [exists_or, ← endsIn_exists, ← hm]
  refine endsIn_bind.trans ((endsIn_congr fun v w' => ?_).trans endsIn_or)
  rw [exists_and_left, ← hn]
  by_cases hp : p v
  · rw [hleft v hp]
    exact ⟨fun h => .inr ⟨hp, h⟩, fun h => h.elim (fun hv => absurd (hv ▸ hp) hlazy) And.right⟩
  · rw [hkept v hp]
    exact ⟨.inl, fun h => h.elim id fun hn => absurd hn.1 hp⟩

/-! ### Evaluations without lazy values -/

/-- An evaluation never gives a lazy value. -/
def IsPlain (m : Eval σ Value) : Prop := ∀ w lazy, ¬ m.Gives w lazy

namespace IsPlain

theorem pure {v : Value} (h : ∀ lazy, v ≠ .deferred lazy) : IsPlain (Pure.pure v : Eval σ Value) :=
  fun _ lazy hgives => h lazy (gives_pure.1 hgives)

theorem throw (e : EvalError) : IsPlain (MonadExcept.throw e : Eval σ Value) :=
  fun _ _ => not_gives_throw

theorem bind {m : Eval σ α} {f : α → Eval σ Value} (hf : ∀ a, IsPlain (f a)) :
    IsPlain (m >>= f) := by
  intro w lazy hgives
  obtain ⟨a, w', -, hgives⟩ := (endsIn_bind.1 hgives).exists_runIn
  exact hf a w' lazy hgives

theorem ofExcept {r : Except EvalError Value} (h : ∀ lazy, r ≠ .ok (.deferred lazy)) :
    IsPlain (Eval.ofExcept r : Eval σ Value) := by
  cases r with
  | ok v => exact .pure fun lazy hv => h lazy (congrArg Except.ok hv)
  | error e => exact .throw e

end IsPlain

end PathQuery.Eval
