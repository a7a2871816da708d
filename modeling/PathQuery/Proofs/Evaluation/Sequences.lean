/-
Evaluations of one element after the other.

* **`Eval.runIn_mapM_eq_error_iff`** — a traversal fails where the evaluation of an element fails
  behind others that do not, and what stands behind it is not evaluated;
* **`Eval.runIn_anyM_of_ok`, `Eval.runIn_anyM_of_error`** — a search answers as the traversal tells,
  and ends in a world that the traversal goes through; it fails only if it has not ended before.

Design notes: the evaluations change the world and may fail, so a part of the elements stands for a
world in between: the one that the traversal of that part leaves.
-/
import PathQuery.Proofs.Evaluation.Keeps

namespace PathQuery.Eval

variable {σ α β γ : Type} {w w' : World σ} {e : EvalError}

/-! ### All elements -/

variable {f : α → Eval σ β} {a : α} {as : List α} {bs : List β}

theorem runIn_mapM_cons_eq_ok_iff :
    ((a :: as).mapM f).runIn w = (.ok bs, w') ↔ ∃ b rest w₁, bs = b :: rest ∧
      (f a).runIn w = (.ok b, w₁) ∧ (as.mapM f).runIn w₁ = (.ok rest, w') := by
  rw [List.mapM_cons, runIn_bind_eq_ok_iff]
  constructor
  · rintro ⟨b, w₁, hfirst, hrest⟩
    obtain ⟨rest, w₂, hrest, hlast⟩ := runIn_bind_eq_ok_iff.1 hrest
    cases hlast
    exact ⟨b, rest, w₁, rfl, hfirst, hrest⟩
  · rintro ⟨b, rest, w₁, rfl, hfirst, hrest⟩
    exact ⟨b, w₁, hfirst, runIn_bind_eq_ok_iff.2 ⟨rest, w', hrest, rfl⟩⟩

theorem length_eq_of_mapM (h : (as.mapM f).runIn w = (.ok bs, w')) : bs.length = as.length := by
  induction as generalizing bs w with
  | nil =>
    cases h
    rfl
  | cons a as ih =>
    obtain ⟨b, rest, w₁, rfl, -, hrest⟩ := runIn_mapM_cons_eq_ok_iff.1 h
    rw [List.length_cons, List.length_cons, ih hrest]

/-- What stands behind an element that fails is not evaluated. -/
theorem runIn_mapM_of_error {w₁ : World σ} (hbefore : (as.mapM f).runIn w = (.ok bs, w₁))
    (hfails : (f a).runIn w₁ = (.error e, w')) (after : List α) :
    ((as ++ a :: after).mapM f).runIn w = (.error e, w') := by
  rw [List.mapM_append, runIn_bind_of_ok hbefore, List.mapM_cons, bind_assoc, runIn_bind, hfails]

/-- A traversal fails as the first element that fails, in the world that those before it leave. -/
theorem runIn_mapM_eq_error_iff :
    (as.mapM f).runIn w = (.error e, w') ↔ ∃ before a after bs w₁, as = before ++ a :: after ∧
      (before.mapM f).runIn w = (.ok bs, w₁) ∧ (f a).runIn w₁ = (.error e, w') := by
  constructor
  · intro h
    induction as generalizing w with
    | nil => cases h
    | cons a as ih =>
      rw [List.mapM_cons] at h
      obtain hfails | ⟨b, w₁, hfirst, hrest⟩ := runIn_bind_eq_error_iff.1 h
      · exact ⟨[], a, as, [], w, rfl, rfl, hfails⟩
      · obtain hrest | ⟨rest, w₂, -, hlast⟩ := runIn_bind_eq_error_iff.1 hrest
        · obtain ⟨before, a', after, bs, w₂, rfl, hbefore, hfails⟩ := ih hrest
          exact ⟨a :: before, a', after, b :: bs, w₂, rfl,
            runIn_mapM_cons_eq_ok_iff.2 ⟨b, bs, w₁, rfl, hfirst, hbefore⟩, hfails⟩
        · cases hlast
  · rintro ⟨before, a, after, bs, w₁, rfl, hbefore, hfails⟩
    exact runIn_mapM_of_error hbefore hfails after

theorem Keeps.mapM {R : WorldOrder σ} (hf : ∀ a, (f a).Keeps R) (as : List α) :
    (as.mapM f).Keeps R := by
  induction as with
  | nil => exact .pure _
  | cons a as ih =>
    rw [List.mapM_cons]
    exact (hf a).bind fun _ => ih.bind fun _ => .pure _

/-! ### Searching -/

variable {p : β → Bool}

/-- A search passes over elements that are not looked for, and goes on in the world they leave. -/
theorem runIn_anyM_of_any_eq_false (h : (as.mapM f).runIn w = (.ok bs, w'))
    (hbs : bs.any p = false) (rest : List α) :
    ((as ++ rest).anyM fun a => do return p (← f a)).runIn w =
      (rest.anyM fun a => do return p (← f a)).runIn w' := by
  induction as generalizing bs w with
  | nil =>
    cases h
    rfl
  | cons a as ih =>
    obtain ⟨b, bs, w₁, rfl, hfirst, hrest⟩ := runIn_mapM_cons_eq_ok_iff.1 h
    obtain ⟨hb, hbs⟩ := Bool.or_eq_false_iff.1 (List.any_cons.symm.trans hbs)
    rw [List.cons_append, List.anyM_cons, bind_assoc, runIn_bind_of_ok hfirst, pure_bind, hb]
    exact ih hrest hbs

/-- A search ends at the first element that is looked for, in a world that the traversal goes
through. -/
theorem runIn_anyM_of_any_eq_true {R : WorldOrder σ} (hf : ∀ a, (f a).Keeps R)
    (h : (as.mapM f).runIn w = (.ok bs, w')) (hbs : bs.any p = true) (rest : List α) :
    ∃ w₁, ((as ++ rest).anyM fun a => do return p (← f a)).runIn w = (.ok true, w₁) ∧
      R.rel w₁ w' := by
  induction as generalizing bs w with
  | nil =>
    cases h
    exact nomatch hbs
  | cons a as ih =>
    obtain ⟨b, bs, w₁, rfl, hfirst, hrest⟩ := runIn_mapM_cons_eq_ok_iff.1 h
    rw [List.cons_append, List.anyM_cons, bind_assoc, runIn_bind_of_ok hfirst, pure_bind]
    cases hb : p b with
    | true =>
      have hkeeps := Keeps.mapM hf as w₁
      rw [hrest] at hkeeps
      exact ⟨w₁, rfl, hkeeps⟩
    | false =>
      rw [List.any_cons, hb, Bool.false_or] at hbs
      exact ih hrest hbs

/-- A search through elements that can all be evaluated. -/
theorem runIn_anyM_of_ok {R : WorldOrder σ} (hf : ∀ a, (f a).Keeps R)
    (h : (as.mapM f).runIn w = (.ok bs, w')) :
    ∃ w₁, (as.anyM fun a => do return p (← f a)).runIn w = (.ok (bs.any p), w₁) ∧
      R.rel w₁ w' := by
  cases hbs : bs.any p with
  | true =>
    have hfound := runIn_anyM_of_any_eq_true hf h hbs []
    rwa [List.append_nil] at hfound
  | false =>
    have hpassed := runIn_anyM_of_any_eq_false h hbs []
    rw [List.append_nil] at hpassed
    exact ⟨w', hpassed, R.refl w'⟩

/-- A search comes to an element that fails unless it has ended before. -/
theorem runIn_anyM_of_error {R : WorldOrder σ} (hf : ∀ a, (f a).Keeps R) {w₁ : World σ}
    (hbefore : (as.mapM f).runIn w = (.ok bs, w₁)) (hfails : (f a).runIn w₁ = (.error e, w'))
    (after : List α) :
    ∃ w₂, ((as ++ a :: after).anyM fun a => do return p (← f a)).runIn w =
        (if bs.any p then .ok true else .error e, w₂) ∧ R.rel w₂ w' := by
  cases hbs : bs.any p with
  | true =>
    obtain ⟨w₂, hfound, hrel⟩ := runIn_anyM_of_any_eq_true hf hbefore hbs (a :: after)
    have hkeeps := hf a w₁
    rw [hfails] at hkeeps
    exact ⟨w₂, hfound, R.trans hrel hkeeps⟩
  | false =>
    refine ⟨w', ?_, R.refl w'⟩
    rw [runIn_anyM_of_any_eq_false hbefore hbs, List.anyM_cons, bind_assoc, runIn_bind, hfails]
    rfl

end PathQuery.Eval
