/-
Evaluations that stay below the limit of depth.

* **`evalOr`** — the evaluator with something else in place of the error at the limit;
* **`StaysBelowLimit`** — an evaluation for which it does not matter what is done at the limit;
* **`above`** — some steps on top of an evaluator, without levels;
* **`runIn_evaluate_eq_above`** — below the limit the first steps of an evaluation may be made on
  top of level zero.

Design notes: a host may swallow the error at the limit, so that no answer tells whether the limit
was hit.  But what is done there would tell, if only by the closures that it makes: so a run does
not come to the limit if and only if nothing that could be done there changes it.
-/
import PathQuery.Proofs.Evaluation.Runs

namespace PathQuery

variable {σ : Type} {host : Host σ}

/-- The evaluator at a level, with `atLimit` in place of the error at the limit. -/
def evalOr (host : Host σ) (atLimit : (depth : Nat) → Evaluator σ) :
    (levels depth : Nat) → Evaluator σ
  | 0, depth => atLimit depth
  | levels + 1, depth => fun env context expr =>
    if env.options.maxDepth ≤ depth then atLimit depth env context expr
    else step host (evalOr host atLimit levels (depth + 1)) env context expr

/-- The evaluation of an expression does not come to the limit of depth: nothing that could be done
there would change it. -/
def StaysBelowLimit (host : Host σ) (env : Environment) (context : Context) (e : Expr)
    (w : World σ) : Prop :=
  ∀ atLimit : Nat → Evaluator σ,
    (evalOr host atLimit (w.levels env) 0 env context e).runIn w =
      (evaluate host env context e).runIn w

theorem evalAt_eq_evalOr (levels depth : Nat) :
    evalAt host levels depth =
      evalOr host (fun _ env _ _ => throw (.depthExceeded env.options.maxDepth)) levels depth := by
  induction levels generalizing depth with
  | zero => rfl
  | succ levels ih =>
    funext env context e
    rw [evalAt, evalOr, ih]

/-! ### Steps without levels -/

/-- Some steps on top of an evaluator. -/
def above (host : Host σ) (below : Evaluator σ) : (steps : Nat) → Evaluator σ
  | 0 => below
  | steps + 1 => step host (above host below steps)

theorem above_above (below : Evaluator σ) (steps more : Nat) :
    above host (above host below steps) more = above host below (more + steps) := by
  induction more with
  | zero => rw [Nat.zero_add, above]
  | succ more ih => rw [Nat.succ_add, above, above, ih]

/-- What the evaluator would be at a depth if the first `steps` levels did not count and `levels`
were at hand behind them. -/
def uncounted (host : Host σ) (levels steps depth : Nat) : Evaluator σ :=
  if depth < steps then above host (evalAt host levels 0) (steps - depth)
  else evalAt host (levels + steps - depth) (depth - steps)

/-- Below the limit the evaluator with uncounted levels makes a step like any other. -/
theorem uncounted_of_lt {levels steps depth : Nat} {env : Environment}
    (hlimit : depth < env.options.maxDepth) (hlevels : depth < levels) (context : Context)
    (e : Expr) :
    uncounted host levels steps depth env context e =
      step host (uncounted host levels steps (depth + 1)) env context e := by
  rcases Nat.lt_trichotomy (depth + 1) steps with hlt | rfl | hgt
  · rw [uncounted, uncounted, if_pos hlt, if_pos (Nat.lt_of_succ_lt hlt),
      show steps - depth = steps - (depth + 1) + 1 by omega, above]
  · rw [uncounted, uncounted, if_pos (Nat.lt_succ_self _), if_neg (Nat.lt_irrefl _),
      Nat.add_sub_cancel, Nat.sub_self, Nat.add_sub_cancel_left]
    rfl
  · rw [uncounted, uncounted, if_neg (by omega), if_neg (by omega),
      show levels + steps - depth = levels + steps - (depth + 1) + 1 by omega,
      evalAt_of_lt (by omega), show depth - steps + 1 = depth + 1 - steps by omega]

/-- If at the limit it goes on as if the first steps did not count, it does so all the time. -/
theorem evalOr_uncounted (host : Host σ) (total steps : Nat) : ∀ {levels depth : Nat},
    levels + depth = total →
      evalOr host (uncounted host total steps) levels depth = uncounted host total steps depth := by
  intro levels
  induction levels with
  | zero => exact fun _ => rfl
  | succ levels ih =>
    intro depth htotal
    funext env context e
    by_cases hlimit : env.options.maxDepth ≤ depth
    · exact if_pos hlimit
    · rw [uncounted_of_lt (Nat.lt_of_not_le hlimit) (by omega), ← ih (by omega)]
      exact if_neg hlimit

/-- Below the limit the first steps of an evaluation may be made on top of level zero. -/
theorem runIn_evaluate_eq_above {env : Environment} {context : Context} {e : Expr} {w : World σ}
    (h : StaysBelowLimit host env context e w) (steps : Nat) :
    (evaluate host env context e).runIn w =
      (above host (evalAt host (w.levels env) 0) steps env context e).runIn w := by
  rw [← h (uncounted host (w.levels env) steps), evalOr_uncounted host _ steps (Nat.add_zero _),
    uncounted]
  cases steps with
  | zero => rfl
  | succ steps => rfl

end PathQuery
