/-
Every derivation has a greedy one of the same tokens.

The grammar lets the body of a closure end anywhere, so `fn(x) => x + 1` is derived in two ways.
Whatever stands behind an open derivation can be moved into the body at its end.

* **`Derivation.exists_extended`** — an operator, a member step or the branches of a conditional can
  be added to the right of a greedy derivation that is open or binds loosely enough;
* **`Derivation.exists_greedy`** — the tokens of a derivation have a greedy one.

Design notes: the pieces that can stand to the right of a derivation are one type, `Piece`, with
the strength of their first token, so that one induction down the right edge of a derivation does
for all of them.
-/
import PathQuery.Proofs.Derivation.Tokens

namespace PathQuery

/-- What may continue a derivation to the right. -/
inductive Piece where
  | operation (op : BinaryOp) (right : Derivation op.level.operand)
  | step (nullSafe : Bool) (name : MemberName)
  | stepCall (nullSafe : Bool) (name : MemberName) (arguments : Items)
  | elvis (otherwise : Derivation .expression)
  | ternary (whenTrue otherwise : Derivation .expression)

namespace Piece

def tokens : Piece → List TokenKind
  | .operation op r => .symbol op.symbol :: r.tokens
  | .step nullSafe m => [.symbol (dotSymbol nullSafe), m.token]
  | .stepCall nullSafe m args =>
    .symbol (dotSymbol nullSafe) :: m.token :: .symbol .leftParen ::
      (args.tokens ++ [.symbol .rightParen])
  | .elvis o => .symbol .question :: .symbol .colon :: o.tokens
  | .ternary t o => .symbol .question :: (t.tokens ++ .symbol .colon :: o.tokens)

/-- The strength of the first token. -/
def strength : Piece → Nat
  | .operation op _ => op.level.tightness + 1
  | .step _ _ => 8
  | .stepCall _ _ _ => 8
  | .elvis _ => 1
  | .ternary _ _ => 1

def IsGreedy : Piece → Prop
  | .operation _ r => r.IsGreedy
  | .step _ _ => True
  | .stepCall _ _ args => args.IsGreedy
  | .elvis o => o.IsGreedy
  | .ternary t o => t.IsGreedy ∧ o.IsGreedy

theorem strength_pos (piece : Piece) : 0 < piece.strength := by
  cases piece <;> exact Nat.succ_pos _

theorem not_lt_strength (piece : Piece) : ¬ 8 < piece.strength := by
  cases piece with
  | operation op r =>
    have := op.level.tightness_le
    rw [strength]
    omega
  | _ => simp [strength]

end Piece

namespace Derivation

variable {n : Nonterminal}

/-- A greedy derivation of the tokens of `t` and those of a piece behind them. -/
def HasExtended (t : Derivation n) (piece : Piece) : Prop :=
  ∃ t' : Derivation n, t'.IsGreedy ∧ t'.tokens = t.tokens ++ piece.tokens

/-! ### Pieces at the end of what they continue -/

theorem hasExtended_condition {c : Derivation (.binary .coalesce)} {piece : Piece}
    (hclosed : c.isOpen = false) (hc : c.IsGreedy) (hp : piece.IsGreedy)
    (hs : piece.strength = 1) : (condition c).HasExtended piece := by
  cases piece with
  | operation op r =>
    have := op.level.tightness_pos
    rw [Piece.strength] at hs
    omega
  | step s m => exact absurd hs (by simp [Piece.strength])
  | stepCall s m args => exact absurd hs (by simp [Piece.strength])
  | elvis o => exact ⟨.elvis c o, ⟨hclosed, hc, hp⟩, rfl⟩
  | ternary t o => exact ⟨.ternary c t o, ⟨hclosed, hc, hp⟩, rfl⟩

theorem hasExtended_binary {level : Level} {l : Derivation (.binary level)} {piece : Piece}
    (hclosed : l.isOpen = false) (hl : l.IsGreedy) (hp : piece.IsGreedy)
    (hs : piece.strength = level.tightness + 1) : l.HasExtended piece := by
  have hpos := level.tightness_pos
  have hle := level.tightness_le
  cases piece with
  | operation op r =>
    obtain rfl : op.level = level := Level.tightness_injective (Nat.succ.inj hs)
    exact ⟨.operation op.level op rfl l r, ⟨hclosed, hl, hp⟩, rfl⟩
  | _ =>
    rw [Piece.strength] at hs
    omega

theorem hasExtended_path {o : Derivation .path} {piece : Piece} (hclosed : o.isOpen = false)
    (ho : o.IsGreedy) (hp : piece.IsGreedy) (hs : 7 < piece.strength) : o.HasExtended piece := by
  cases piece with
  | operation op r =>
    have := op.level.tightness_le
    rw [Piece.strength] at hs
    omega
  | step s m => exact ⟨.step o s m, ⟨hclosed, ho⟩, rfl⟩
  | stepCall s m args => exact ⟨.stepCall o s m args, ⟨hclosed, ho, hp⟩, rfl⟩
  | elvis o => exact absurd hs (by simp [Piece.strength])
  | ternary t o => exact absurd hs (by simp [Piece.strength])

/-! ### The right edge -/

/-- A piece goes to the right of a derivation that is open or binds more loosely.  The induction is
down the right edge, to the closed part that the piece continues. -/
theorem exists_extended (piece : Piece) (hp : piece.IsGreedy) :
    {n : Nonterminal} → (t : Derivation n) → t.IsGreedy →
    (t.isOpen = true ∨ n.tightness < piece.strength) → t.HasExtended piece
  | _, .condition c, h, hs => by
    by_cases hc : c.isOpen = true ∨ 1 < piece.strength
    · obtain ⟨c', hc', htokens⟩ := exists_extended piece hp c h hc
      exact ⟨.condition c', hc', htokens⟩
    · -- The chain ends here, and the branches go behind it.
      have hclosed : c.isOpen = false := by simpa using fun ho => hc (.inl ho)
      have hpos := piece.strength_pos
      exact hasExtended_condition hclosed h hp (by omega)
  | _, .elvis c o, h, hs => by
    obtain ⟨o', ho', htokens⟩ := exists_extended piece hp o h.2.2 (.inr piece.strength_pos)
    exact ⟨.elvis c o', ⟨h.1, h.2.1, ho'⟩, by simp [tokens, htokens]⟩
  | _, .ternary c t o, h, hs => by
    obtain ⟨o', ho', htokens⟩ := exists_extended piece hp o h.2.2.2 (.inr piece.strength_pos)
    exact ⟨.ternary c t o', ⟨h.1, h.2.1, h.2.2.1, ho'⟩, by simp [tokens, htokens]⟩
  | _, .operand level x, h, hs => by
    by_cases hx : x.isOpen = true ∨ level.operand.tightness < piece.strength
    · obtain ⟨x', hx', htokens⟩ := exists_extended piece hp x h hx
      exact ⟨.operand level x', hx', htokens⟩
    · -- The operand neither is open nor takes the piece, so it is an operator of this level.
      rw [Level.tightness_operand, not_or] at hx
      have hclosed : (operand level x).isOpen = false := by simpa [isOpen] using hx.1
      rcases hs with ho | hs
      · rw [hclosed] at ho
        exact absurd ho (by decide)
      · exact hasExtended_binary hclosed h hp (Nat.le_antisymm (Nat.not_lt.1 hx.2) hs)
  | _, .operation level op ofLevel l r, h, hs => by
    by_cases hr : r.isOpen = true ∨ level.operand.tightness < piece.strength
    · obtain ⟨r', hr', htokens⟩ := exists_extended piece hp r h.2.2 hr
      exact ⟨.operation level op ofLevel l r', ⟨h.1, h.2.1, hr'⟩, by simp [tokens, htokens]⟩
    · -- As for a single operand, with the whole operation on the left of the piece.
      rw [Level.tightness_operand, not_or] at hr
      have hclosed : (operation level op ofLevel l r).isOpen = false := by
        simpa [isOpen] using hr.1
      rcases hs with ho | hs
      · rw [hclosed] at ho
        exact absurd ho (by decide)
      · exact hasExtended_binary hclosed h hp (Nat.le_antisymm (Nat.not_lt.1 hr.2) hs)
  | _, .path p, h, hs => by
    obtain ⟨p', hp', htokens⟩ := exists_extended piece hp p h hs
    exact ⟨.path p', hp', htokens⟩
  | _, .minus x, h, hs => by
    obtain ⟨x', hx', htokens⟩ := exists_extended piece hp x h hs
    exact ⟨.minus x', hx', by simp [tokens, htokens]⟩
  | _, .primary p, h, hs => by
    by_cases ho : p.isOpen = true
    · obtain ⟨p', hp', htokens⟩ := exists_extended piece hp p h (.inl ho)
      exact ⟨.primary p', hp', htokens⟩
    · have hclosed : (primary p).isOpen = false := by simpa [isOpen] using ho
      exact hasExtended_path hclosed h hp (hs.resolve_left ho)
  | _, .step o s m, h, hs => hasExtended_path rfl h hp (hs.resolve_left (by simp [isOpen]))
  | _, .stepCall o s m args, h, hs =>
    hasExtended_path rfl h hp (hs.resolve_left (by simp [isOpen]))
  | _, .closure keyword params trailing body, h, hs => by
    obtain ⟨body', hbody, htokens⟩ := exists_extended piece hp body h (.inr piece.strength_pos)
    exact ⟨.closure keyword params trailing body', hbody, by simp [tokens, htokens]⟩
  -- What is closed and binds most tightly has no piece to its right.
  | _, .literal _, _, hs => absurd (hs.resolve_left (by simp [isOpen])) piece.not_lt_strength
  | _, .name _, _, hs => absurd (hs.resolve_left (by simp [isOpen])) piece.not_lt_strength
  | _, .call _ _, _, hs => absurd (hs.resolve_left (by simp [isOpen])) piece.not_lt_strength
  | _, .group _, _, hs => absurd (hs.resolve_left (by simp [isOpen])) piece.not_lt_strength
  | _, .list _, _, hs => absurd (hs.resolve_left (by simp [isOpen])) piece.not_lt_strength

end Derivation

/-! ### All derivations -/

mutual

/-- The tokens of a derivation have a greedy one. -/
theorem Derivation.exists_greedy : {n : Nonterminal} → (t : Derivation n) →
    ∃ t' : Derivation n, t'.IsGreedy ∧ t'.tokens = t.tokens
  | _, .condition c => by
    obtain ⟨c', hc, hck⟩ := c.exists_greedy
    exact ⟨.condition c', hc, hck⟩
  | _, .elvis c o => by
    obtain ⟨c', hc, hck⟩ := c.exists_greedy
    obtain ⟨o', ho, hok⟩ := o.exists_greedy
    obtain ⟨t, ht, htk⟩ := Derivation.exists_extended (.elvis o') ho (.condition c') hc
      (.inr Nat.zero_lt_one)
    exact ⟨t, ht, by simp [htk, Derivation.tokens, Piece.tokens, hck, hok]⟩
  | _, .ternary c w o => by
    obtain ⟨c', hc, hck⟩ := c.exists_greedy
    obtain ⟨w', hw, hwk⟩ := w.exists_greedy
    obtain ⟨o', ho, hok⟩ := o.exists_greedy
    obtain ⟨t, ht, htk⟩ := Derivation.exists_extended (.ternary w' o') ⟨hw, ho⟩
      (.condition c') hc (.inr Nat.zero_lt_one)
    exact ⟨t, ht, by simp [htk, Derivation.tokens, Piece.tokens, hck, hwk, hok]⟩
  | _, .operand level x => by
    obtain ⟨x', hx, hxk⟩ := x.exists_greedy
    exact ⟨.operand level x', hx, hxk⟩
  | _, .operation level op ofLevel l r => by
    obtain ⟨l', hl, hlk⟩ := l.exists_greedy
    obtain ⟨r', hr, hrk⟩ := r.exists_greedy
    subst ofLevel
    obtain ⟨t, ht, htk⟩ := Derivation.exists_extended (.operation op r') hr l' hl
      (.inr (Nat.lt_succ_self _))
    exact ⟨t, ht, by simp [htk, Derivation.tokens, Piece.tokens, hlk, hrk]⟩
  | _, .path p => by
    obtain ⟨p', hp, hpk⟩ := p.exists_greedy
    exact ⟨.path p', hp, hpk⟩
  | _, .minus x => by
    obtain ⟨x', hx, hxk⟩ := x.exists_greedy
    exact ⟨.minus x', hx, by simp [Derivation.tokens, hxk]⟩
  | _, .primary p => by
    obtain ⟨p', hp, hpk⟩ := p.exists_greedy
    exact ⟨.primary p', hp, hpk⟩
  | _, .step o s m => by
    obtain ⟨o', ho, hok⟩ := o.exists_greedy
    obtain ⟨t, ht, htk⟩ := Derivation.exists_extended (.step s m) trivial o' ho
      (.inr (Nat.lt_succ_self 7))
    exact ⟨t, ht, by simp [htk, Derivation.tokens, Piece.tokens, hok]⟩
  | _, .stepCall o s m args => by
    obtain ⟨o', ho, hok⟩ := o.exists_greedy
    obtain ⟨args', hargs, hargsk⟩ := args.exists_greedy
    obtain ⟨t, ht, htk⟩ := Derivation.exists_extended (.stepCall s m args') hargs o' ho
      (.inr (Nat.lt_succ_self 7))
    exact ⟨t, ht, by simp [htk, Derivation.tokens, Piece.tokens, hok, hargsk]⟩
  | _, .literal v => ⟨.literal v, trivial, rfl⟩
  | _, .name m => ⟨.name m, trivial, rfl⟩
  | _, .call m args => by
    obtain ⟨args', hargs, hargsk⟩ := args.exists_greedy
    exact ⟨.call m args', hargs, by simp [Derivation.tokens, hargsk]⟩
  | _, .group e => by
    obtain ⟨e', he, hek⟩ := e.exists_greedy
    exact ⟨.group e', he, by simp [Derivation.tokens, hek]⟩
  | _, .list es => by
    obtain ⟨es', hes, hesk⟩ := es.exists_greedy
    exact ⟨.list es', hes, by simp [Derivation.tokens, hesk]⟩
  | _, .closure keyword params trailing body => by
    obtain ⟨body', hbody, hbodyk⟩ := body.exists_greedy
    exact ⟨.closure keyword params trailing body', hbody, by simp [Derivation.tokens, hbodyk]⟩

theorem Items.exists_greedy : (es : Items) → ∃ es' : Items, es'.IsGreedy ∧ es'.tokens = es.tokens
  | .none => ⟨.none, trivial, rfl⟩
  | .last e => by
    obtain ⟨e', he, hek⟩ := e.exists_greedy
    exact ⟨.last e', he, hek⟩
  | .more e rest => by
    obtain ⟨e', he, hek⟩ := e.exists_greedy
    obtain ⟨rest', hrest, hrestk⟩ := rest.exists_greedy
    exact ⟨.more e' rest', ⟨he, hrest⟩, by simp [Items.tokens, hek, hrestk]⟩

end

end PathQuery
