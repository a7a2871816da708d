/-
The productions of the parser by nonterminal.

* **`Parser.production`** — what reads a nonterminal;
* **`Level.operator_eq_some`, `Level.operator_eq_none`** — the operators of a level are the tokens
  of its strength.
-/
import PathQuery.Proofs.Derivation.Tokens
import PathQuery.Proofs.Parser.Runs

namespace PathQuery

namespace Level

/-- How the parser knows the operators of a level. -/
def operator : Level → TokenKind → Option (Expr → Expr → Expr)
  | .coalesce => Parser.coalesceOperator
  | .disjunction => Parser.orOperator
  | .conjunction => Parser.andOperator
  | .comparison => Parser.comparisonOperator
  | .additive => Parser.additiveOperator
  | .multiplicative => Parser.multiplicativeOperator

theorem isSome_operator (level : Level) (k : TokenKind) :
    (level.operator k).isSome = (k.strength == level.tightness + 1) := by
  cases k with
  | symbol s => cases level <;> cases s <;> rfl
  | _ => cases level <;> rfl

theorem operator_eq_none {level : Level} {k : TokenKind} :
    level.operator k = none ↔ k.strength ≠ level.tightness + 1 := by
  rw [← Option.isNone_iff_eq_none, ← Option.not_isSome, isSome_operator]
  simp

theorem operator_symbol (op : BinaryOp) : op.level.operator (.symbol op.symbol) = some op.join := by
  cases op with
  | coalesce => rfl
  | logical op => cases op <;> rfl
  | comparison op => cases op <;> rfl
  | arithmetic op => cases op <;> rfl

/-- The operators of a level are binary operators of the grammar. -/
theorem operator_eq_some {level : Level} {k : TokenKind} {join : Expr → Expr → Expr}
    (h : level.operator k = some join) :
    ∃ op : BinaryOp, op.level = level ∧ k = .symbol op.symbol ∧ join = op.join := by
  have hs : k.strength = level.tightness + 1 := by
    by_contra hs
    rw [operator_eq_none.2 hs] at h
    exact absurd h (by simp)
  have hop : ∃ op : BinaryOp, k = .symbol op.symbol :=
    BinaryOp.exists_symbol (by have := level.tightness_pos; omega)
      (by have := level.tightness_le; omega)
  obtain ⟨op, rfl⟩ := hop
  rw [BinaryOp.strength_symbol, Nat.add_right_cancel_iff] at hs
  obtain rfl := tightness_injective hs
  rw [operator_symbol] at h
  exact ⟨op, rfl, rfl, (Option.some.inj h).symm⟩

end Level

/-- The strength of the first token, or that of the end. -/
theorem ParserState.strength_peek (s : ParserState) :
    s.stream.peek.kind.strength = headStrength s.kinds := by
  rw [kind_peek]
  cases s.kinds <;> rfl

namespace Parser

/-- What reads a nonterminal. -/
def production (nested : Nested) : Nonterminal → Parser Expr
  | .expression => conditional nested
  | .binary .coalesce => coalesce nested
  | .binary .disjunction => disjunction nested
  | .binary .conjunction => conjunction nested
  | .binary .comparison => comparison nested
  | .binary .additive => additive nested
  | .binary .multiplicative => multiplicative nested
  | .unary => unary nested
  | .path => path nested
  | .primary => primary nested

/-- All binary levels are chains. -/
theorem production_binary (nested : Nested) (level : Level) :
    production nested (.binary level) = chain level.operator (production nested level.operand) := by
  cases level <;> rfl

end Parser

end PathQuery
