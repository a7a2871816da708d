/-
Minus signs in front of numbers.

In front of a literal number a minus sign changes its sign at once; in front of a name it stands for
zero less the value of the name:

* **`Expr.negated_iterate_number`, `Expr.negated_iterate_variable`** — the two trees;
* **`runIn_evaluate_negated_variable`** — what taking a variable from zero again and again gives;
* **`signs_agree`** — the two give the same number if that negates exactly;
* **`exists_signs_differ`** — and may give different ones if it does not.
-/
import PathQuery.Proofs.Arithmetic.Negation
import PathQuery.Proofs.Evaluation.Runs
import PathQuery.Proofs.Expr.Signs
import PathQuery.Proofs.Number.Decimal

namespace PathQuery

/-! ### Trees -/

namespace Expr

theorem negated_iterate_number (n : Number) (k : Nat) :
    negated^[k] (.literal (.number n)) = .literal (.number (Number.opposite^[k] n)) := by
  induction k generalizing n with
  | zero => rfl
  | succ k ih =>
    rw [Function.iterate_succ_apply, Function.iterate_succ_apply]
    cases n <;> exact ih _

/-- A tree that is no number is taken from zero. -/
theorem negated_iterate_variable (name : String) (k : Nat) :
    negated^[k + 1] (.variable name) =
      .arithmetic .subtract (.literal (.number (.integer 0))) (negated^[k] (.variable name)) := by
  induction k with
  | zero => rfl
  | succ k ih =>
    rw [Function.iterate_succ_apply', ih]
    rfl

end Expr

/-! ### Values -/

section

variable {σ : Type} {host : Host σ} {env : Environment} {context : Context} {w : World σ}
  {name : String} {n : Number} {levels depth : Nat}

theorem runIn_evalAt_literal (value : Literal) (h : depth < env.options.maxDepth) :
    (evalAt host (levels + 1) depth env context (.literal value)).runIn w = (.ok value.value, w) := by
  rw [evalAt_of_lt h]
  rfl

/-- A variable is taken from zero once for every minus sign, each of which takes a level. -/
theorem runIn_evalAt_negated_variable (hname : context.get? name = some (.number n)) (k : Nat)
    (hlevels : k < levels) (hdepth : depth + k < env.options.maxDepth) :
    (evalAt host levels depth env context (Expr.negated^[k] (.variable name))).runIn w =
      (.ok (.number ((Number.fromZero Decimal.system)^[k] n)), w) := by
  induction k generalizing levels depth with
  | zero =>
    obtain ⟨levels, rfl⟩ := Nat.exists_eq_succ_of_ne_zero (Nat.ne_of_gt hlevels)
    have hresolve : resolve host (evalAt host levels (depth + 1)) name context env.globals =
        pure (some (.number n)) := by
      rw [resolve, hname]
      rfl
    rw [evalAt_of_lt (show depth < env.options.maxDepth from hdepth), Function.iterate_zero_apply,
      step, hresolve]
    rfl
  | succ k ih =>
    obtain ⟨levels, rfl⟩ := Nat.exists_eq_succ_of_ne_zero (Nat.ne_of_gt (Nat.zero_lt_of_lt hlevels))
    obtain ⟨levels, rfl⟩ :=
      Nat.exists_eq_succ_of_ne_zero (Nat.ne_of_gt (Nat.zero_lt_of_lt (Nat.lt_of_succ_lt_succ hlevels)))
    have hzero : (evalAt host (levels + 1) (depth + 1) env context
        (.literal (.number (.integer 0)))).runIn w = (.ok (.number (.integer 0)), w) :=
      runIn_evalAt_literal _ (by omega)
    rw [evalAt_of_lt (by omega), Expr.negated_iterate_variable, step, Eval.runIn_bind_of_ok hzero,
      Eval.runIn_bind_of_ok (ih (by omega) (by omega)), Function.iterate_succ_apply']
    rfl

theorem runIn_evaluate_literal (value : Literal) (h : 0 < env.options.maxDepth) :
    (evaluate host env context (.literal value)).runIn w = (.ok value.value, w) := by
  rw [runIn_evaluate_of_pos h]
  rfl

theorem runIn_evaluate_negated_variable (hname : context.get? name = some (.number n)) {k : Nat}
    (h : k < env.options.maxDepth) :
    (evaluate host env context (Expr.negated^[k] (.variable name))).runIn w =
      (.ok (.number ((Number.fromZero Decimal.system)^[k] n)), w) := by
  rw [runIn_evaluate]
  exact runIn_evalAt_negated_variable hname k (Nat.lt_of_lt_of_le h (maxDepth_le_levels w env))
    (by omega)

end

/-! ### Signs around literals and names -/

theorem isUnsigned_of_tokenize {t : String} {stream : TokenStream} {n : Number}
    (ht : tokenize t = .ok stream) (hn : stream.kinds = [(Literal.number n).token]) :
    n.IsUnsigned := by
  have hlexed := isLexed_tokenize ht _ (hn ▸ List.mem_singleton_self _)
  cases n with
  | integer n =>
    have hnonneg : ¬ n < 0 := hlexed
    rw [Int64.lt_iff_toInt_lt, Int64.toInt_zero] at hnonneg
    exact Int.not_lt.1 hnonneg
  | float x => exact hlexed

namespace Signs

variable {t name : String} {stream : TokenStream} {n : Number}

theorem parse_number_eq_ok_iff (ht : tokenize t = .ok stream)
    (hn : stream.kinds = [(Literal.number n).token]) (signs : Signs) (e : Expr) :
    Expr.parse (signs.text t) = .ok e ↔ signs.length < maxNesting ∧
      e = .literal (.number (Number.opposite^[signs.minuses] n)) := by
  rw [← Expr.negated_iterate_number]
  exact parse_text_eq_ok_iff (p := .literal (.number n)) ht hn rfl signs

theorem parse_name_eq_ok_iff (hname : IsName name) (signs : Signs) (e : Expr) :
    Expr.parse (signs.text name) = .ok e ↔ signs.length < maxNesting ∧
      e = Expr.negated^[signs.minuses] (.variable name) := by
  obtain ⟨stream, hstream, hkinds⟩ := readsAs_eq_true.1 (isName_iff.2 hname)
  exact parse_text_eq_ok_iff (p := .name name) hstream hkinds rfl signs

end Signs

/-- A literal number with minus signs in front of it and parentheses around it, and a variable of
the same value with the same signs around it.  They are parsed alike, up to the limit of nesting;
and where the depth allows for a level for each minus sign, they have the same value if there is no
minus sign or if the number negates exactly, and with one minus sign only then. -/
theorem signs_agree {t name : String} {stream : TokenStream} {n : Number}
    (ht : tokenize t = .ok stream) (hn : stream.kinds = [(Literal.number n).token])
    (hname : IsName name) (signs : Signs) :
    ((∃ folded, Expr.parse (signs.text t) = .ok folded) ↔ signs.length < maxNesting) ∧
      ∀ folded, Expr.parse (signs.text t) = .ok folded →
        ∃ unfolded, Expr.parse (signs.text name) = .ok unfolded ∧
          ∀ {σ : Type} (host : Host σ) (env : Environment) (context : Context) (w : World σ),
            context.get? name = some (.number n) → signs.minuses < env.options.maxDepth →
              ∃ v v', (evaluate host env context folded).runIn w = (.ok v, w) ∧
                (evaluate host env context unfolded).runIn w = (.ok v', w) ∧
                (signs.minuses = 0 ∨ n.NegatesExactly Decimal.system → v.identical v' = true) ∧
                (signs.minuses = 1 → (v.identical v' = true ↔ n.NegatesExactly Decimal.system)) := by
  have hunsigned := isUnsigned_of_tokenize ht hn
  have hliteral := Signs.parse_number_eq_ok_iff ht hn signs
  refine ⟨⟨fun ⟨e, he⟩ => ((hliteral e).1 he).1, fun h => ⟨_, (hliteral _).2 ⟨h, rfl⟩⟩⟩, ?_⟩
  intro folded hfolded
  obtain ⟨hlength, rfl⟩ := (hliteral folded).1 hfolded
  refine ⟨_, (Signs.parse_name_eq_ok_iff hname signs _).2 ⟨hlength, rfl⟩, ?_⟩
  intro σ host env context w hget hdepth
  refine ⟨_, _, runIn_evaluate_literal _ (Nat.zero_lt_of_lt hdepth),
    runIn_evaluate_negated_variable hget hdepth, ?same, ?single⟩
  case same =>
    have hself : (Number.opposite^[signs.minuses] n).identical (Number.opposite^[signs.minuses] n) =
        true :=
      Number.identical_self ((Number.isNaN_opposite_iterate n _).trans hunsigned.isNaN_eq_false)
    rintro (hzero | hexact)
    · rw [hzero] at hself ⊢
      exact hself
    · rw [Number.fromZero_iterate Decimal.lawful_system hunsigned hexact]
      exact hself
  case single =>
    intro hone
    rw [hone]
    exact Number.identical_fromZero_iff Decimal.lawful_system hunsigned

/-- A float that its decimal gives back. -/
theorem signs_agree_of_fraction :
    let env : Environment := ⟨.empty, none, {}⟩
    let context : Context := .ofFields [("x", .float ⟨0x4004000000000000⟩)]
    let w : World Unit := ⟨(), #[]⟩
    ∃ folded unfolded, Expr.parse "-(-2.5)" = .ok folded ∧ Expr.parse "-(-x)" = .ok unfolded ∧
      ∃ v v', (evaluate (Host.constant .null) env context folded).runIn w = (.ok v, w) ∧
        (evaluate (Host.constant .null) env context unfolded).runIn w = (.ok v', w) ∧
        v.identical v' = true := by
  intro env context w
  have hexact : (Number.float ⟨0x4004000000000000⟩).NegatesExactly Decimal.system := by
    have hdecimal : Decimal.ofBinary64 ⟨0x4004000000000000⟩ = some ⟨25, 1⟩ := by decide +kernel
    intro d hd
    obtain rfl := Option.some_inj.1 (hdecimal.symm.trans hd)
    decide +kernel
  obtain ⟨stream, hstream, hkinds⟩ := readsAs_eq_true.1
    (show readsAs "2.5" [.float ⟨0x4004000000000000⟩] = true by decide +kernel)
  have hname : IsName "x" := isName_iff.1 (by decide +kernel)
  obtain ⟨hparsed, hagree⟩ := signs_agree (n := .float _) hstream hkinds hname
    [.minus, .parentheses, .minus]
  obtain ⟨folded, hfolded⟩ := hparsed.2 (by decide)
  obtain ⟨unfolded, hunfolded, hvalues⟩ := hagree folded hfolded
  obtain ⟨v, v', hv, hv', hsame, -⟩ := hvalues (Host.constant .null) env context w rfl (by decide)
  exact ⟨folded, unfolded, hfolded, hunfolded, v, v', hv, hv', hsame (.inr hexact)⟩

/-- An integer in place of a float, another float, and no value at all where the depth ends. -/
theorem exists_signs_differ :
    let two : Binary64 := ⟨0x4000000000000000⟩
    let long : Binary64 := ⟨0x3FD3333333333334⟩
    let short : Binary64 := ⟨0x3FD3333333333333⟩
    let unfolded : Expr := .negated (.variable "x")
    let value (maxDepth : Nat) (x : Binary64) : Except EvalError Value :=
      ((evaluate (Host.constant .null) ⟨.empty, none, ⟨maxDepth, false⟩⟩
        (.ofFields [("x", .float x)]) unfolded).runIn ⟨(), #[]⟩).1
    Expr.parse "-x" = .ok unfolded ∧
      Expr.parse "-2.0" = .ok (.literal (.number (.float (-two)))) ∧
      value 128 two = .ok (.integer (-2)) ∧
      (Value.float (-two)).identical (.integer (-2)) = false ∧
      Expr.parse "-0.30000000000000004" = .ok (.literal (.number (.float (-long)))) ∧
      value 128 long = .ok (.float (-short)) ∧
      (Value.float (-long)).identical (.float (-short)) = false ∧
      value 1 two = .error (.depthExceeded 1) := by
  intro two long short unfolded value
  have hvalue (x : Binary64) : value 128 x = .ok (.number (Number.fromZero Decimal.system (.float x))) := by
    have hrun : (evaluate (Host.constant .null) ⟨.empty, none, ⟨128, false⟩⟩
        (.ofFields [("x", .float x)]) unfolded).runIn ⟨(), #[]⟩ =
        (.ok (.number ((Number.fromZero Decimal.system)^[1] (.float x))), ⟨(), #[]⟩) :=
      runIn_evaluate_negated_variable (k := 1) rfl (by decide)
    exact congrArg Prod.fst hrun
  have hname : IsName "x" := isName_iff.1 (by decide +kernel)
  obtain ⟨stream, htwo, hkinds⟩ := readsAs_eq_true.1
    (show readsAs "2.0" [.float two] = true by decide +kernel)
  obtain ⟨stream', hlong, hkinds'⟩ := readsAs_eq_true.1
    (show readsAs "0.30000000000000004" [.float long] = true by decide +kernel)
  have hinteger : Number.fromZero Decimal.system (.float two) = .integer (-2) := by decide +kernel
  have hfloat : Number.fromZero Decimal.system (.float long) = .float (-short) := by decide +kernel
  refine ⟨?_, ?_, ?_, rfl, ?_, ?_, by decide +kernel, rfl⟩
  · exact (Signs.parse_name_eq_ok_iff hname [.minus] _).2 ⟨by decide, rfl⟩
  · exact (Signs.parse_number_eq_ok_iff (n := .float two) htwo hkinds [.minus] _).2
      ⟨by decide, rfl⟩
  · rw [hvalue, hinteger]
    rfl
  · exact (Signs.parse_number_eq_ok_iff (n := .float long) hlong hkinds' [.minus] _).2
      ⟨by decide, rfl⟩
  · rw [hvalue, hfloat]
    rfl

end PathQuery
