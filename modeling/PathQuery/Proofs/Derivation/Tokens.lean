/-
The tokens of a derivation, seen from outside.

* **`TokenKind.strength`** — how tightly a token binds what stands in front of it: a nonterminal can
  go on with tokens that bind more tightly than itself;
* **`Derivation.head_tokens`** — the first token starts an expression;
* **`PassesOver.derivation`** — what passes over tokens and pairs of parentheses passes over
  derivations;
* **`Derivation.arrowBehind_tokens`** — a search for the parenthesis that closes an outer one passes
  over a derivation.
-/
import Mathlib.Tactic.ByContra
import PathQuery.Proofs.Derivation

namespace PathQuery

/-! ### Binding -/

/-- How tightly a token binds what stands in front of it; zero if it does not continue an
expression. -/
def TokenKind.strength : TokenKind → Nat
  | .symbol .question => 1
  | .symbol .coalesce => 2
  | .symbol .or => 3
  | .symbol .and => 4
  | .symbol .equal => 5
  | .symbol .identical => 5
  | .symbol .notEqual => 5
  | .symbol .notIdentical => 5
  | .symbol .less => 5
  | .symbol .lessEqual => 5
  | .symbol .greater => 5
  | .symbol .greaterEqual => 5
  | .symbol .plus => 6
  | .symbol .minus => 6
  | .symbol .star => 7
  | .symbol .slash => 7
  | .symbol .percent => 7
  | .symbol .dot => 8
  | .symbol .nullSafeDot => 8
  | _ => 0

/-- The strength of the first token. -/
def headStrength : List TokenKind → Nat
  | [] => 0
  | k :: _ => k.strength

def Level.tightness : Level → Nat
  | .coalesce => 1
  | .disjunction => 2
  | .conjunction => 3
  | .comparison => 4
  | .additive => 5
  | .multiplicative => 6

/-- The strongest token that does not continue a nonterminal. -/
def Nonterminal.tightness : Nonterminal → Nat
  | .expression => 0
  | .binary level => level.tightness
  | .unary => 7
  | .path => 7
  | .primary => 8

/-- The strongest token that may follow a derivation: behind the body of a closure it must not
continue an expression at all. -/
def Derivation.hold {n : Nonterminal} (t : Derivation n) : Nat :=
  if t.isOpen then 0 else n.tightness

@[simp] theorem headStrength_nil : headStrength [] = 0 := rfl

@[simp] theorem headStrength_cons (k : TokenKind) (ks : List TokenKind) :
    headStrength (k :: ks) = k.strength := rfl

@[simp] theorem Level.tightness_operand (level : Level) :
    level.operand.tightness = level.tightness + 1 := by
  cases level <;> rfl

theorem Level.tightness_pos (level : Level) : 0 < level.tightness := by
  cases level <;> decide

theorem Level.tightness_le (level : Level) : level.tightness ≤ 6 := by
  cases level <;> decide

theorem Level.tightness_injective {l m : Level} (h : l.tightness = m.tightness) : l = m := by
  cases l <;> cases m <;> first | rfl | exact absurd h (by decide)

@[simp] theorem BinaryOp.strength_symbol (op : BinaryOp) :
    (TokenKind.symbol op.symbol).strength = op.level.tightness + 1 := by
  cases op with
  | coalesce => rfl
  | logical op => cases op <;> rfl
  | comparison op => cases op <;> rfl
  | arithmetic op => cases op <;> rfl

/-- The tokens of these strengths are the binary operators. -/
theorem BinaryOp.exists_symbol {k : TokenKind} (h : 2 ≤ k.strength) (h' : k.strength ≤ 7) :
    ∃ op : BinaryOp, k = .symbol op.symbol := by
  cases k with
  | symbol s =>
    cases s with
    | coalesce => exact ⟨.coalesce, rfl⟩
    | or => exact ⟨.logical .or, rfl⟩
    | and => exact ⟨.logical .and, rfl⟩
    | equal => exact ⟨.comparison .equal, rfl⟩
    | identical => exact ⟨.comparison .identical, rfl⟩
    | notEqual => exact ⟨.comparison .notEqual, rfl⟩
    | notIdentical => exact ⟨.comparison .notIdentical, rfl⟩
    | less => exact ⟨.comparison .less, rfl⟩
    | lessEqual => exact ⟨.comparison .lessEqual, rfl⟩
    | greater => exact ⟨.comparison .greater, rfl⟩
    | greaterEqual => exact ⟨.comparison .greaterEqual, rfl⟩
    | plus => exact ⟨.arithmetic .add, rfl⟩
    | minus => exact ⟨.arithmetic .subtract, rfl⟩
    | star => exact ⟨.arithmetic .multiply, rfl⟩
    | slash => exact ⟨.arithmetic .divide, rfl⟩
    | percent => exact ⟨.arithmetic .modulo, rfl⟩
    | dot => exact absurd h' (by decide)
    | nullSafeDot => exact absurd h' (by decide)
    | _ => exact absurd h (by decide)
  | _ => simp [TokenKind.strength] at h

theorem eq_question_of_strength {k : TokenKind} (h : k.strength = 1) : k = .symbol .question := by
  cases k with
  | symbol s => cases s <;> first | rfl | exact absurd h (by decide)
  | _ => simp [TokenKind.strength] at h

/-- The strongest tokens are the dots. -/
theorem exists_dotSymbol {k : TokenKind} (h : k.isDot = true) :
    ∃ nullSafe, k = .symbol (dotSymbol nullSafe) ∧
      nullSafe = (k == .symbol .nullSafeDot) := by
  cases k with
  | symbol s =>
    cases s with
    | dot => exact ⟨false, rfl, rfl⟩
    | nullSafeDot => exact ⟨true, rfl, rfl⟩
    | _ => exact absurd h (by decide)
  | _ => exact absurd h (by simp [TokenKind.isDot])

theorem strength_le (k : TokenKind) : k.strength ≤ 8 := by
  cases k with
  | symbol s => cases s <;> decide
  | _ => exact Nat.zero_le _

/-- Tokens that are no dots are weaker. -/
theorem strength_le_of_not_isDot {k : TokenKind} (h : k.isDot = false) : k.strength ≤ 7 := by
  cases k with
  | symbol s =>
    cases s with
    | dot => exact absurd h (by decide)
    | nullSafeDot => exact absurd h (by decide)
    | _ => decide
  | _ => exact Nat.zero_le _

@[simp] theorem strength_dotSymbol (nullSafe : Bool) :
    (TokenKind.symbol (dotSymbol nullSafe)).strength = 8 := by
  cases nullSafe <;> rfl

namespace Derivation

variable {n : Nonterminal}

theorem hold_le (t : Derivation n) : t.hold ≤ n.tightness := by
  rw [hold]
  split <;> omega

theorem hold_of_closed {t : Derivation n} (h : t.isOpen = false) : t.hold = n.tightness := by
  rw [hold, h]
  rfl

theorem hold_of_open {t : Derivation n} (h : t.isOpen = true) : t.hold = 0 := by
  rw [hold, h]
  rfl

/-- Only the body of a closure keeps a derivation from being followed by what its nonterminal
allows. -/
theorem isOpen_eq_false {t : Derivation n} {ks : List TokenKind} (hk : 0 < headStrength ks)
    (h : headStrength ks ≤ t.hold) : t.isOpen = false := by
  by_contra ho
  rw [hold_of_open (by simpa using ho)] at h
  omega

end Derivation

/-! ### First tokens -/

/-- Whether a primary expression can start with a token. -/
def TokenKind.startsPrimary : TokenKind → Bool
  | .symbol .leftParen => true
  | .symbol .leftBracket => true
  | .symbol _ => false
  | .endOfInput => false
  | _ => true

/-- Whether an expression can start with a token. -/
def TokenKind.startsExpression (k : TokenKind) : Bool := k.startsPrimary || k == .symbol .minus

theorem Literal.startsPrimary_token (v : Literal) : v.token.startsPrimary = true := by
  cases v with
  | number x => cases x <;> rfl
  | _ => rfl

namespace Derivation

/-- The first token of a member chain starts a primary expression. -/
theorem head_tokens_primary : {n : Nonterminal} → (t : Derivation n) → n = .path ∨ n = .primary →
    ∃ k ks, t.tokens = k :: ks ∧ k.startsPrimary = true
  | _, .primary p, _ => head_tokens_primary p (.inr rfl)
  | _, .step o s m, _ => by
    obtain ⟨k, ks, hk, hs⟩ := head_tokens_primary o (.inl rfl)
    exact ⟨k, _, by rw [tokens, hk]; rfl, hs⟩
  | _, .stepCall o s m args, _ => by
    obtain ⟨k, ks, hk, hs⟩ := head_tokens_primary o (.inl rfl)
    exact ⟨k, _, by rw [tokens, hk]; rfl, hs⟩
  | _, .literal v, _ => ⟨v.token, [], rfl, v.startsPrimary_token⟩
  | _, .name _, _ => ⟨_, _, rfl, rfl⟩
  | _, .call _ _, _ => ⟨_, _, rfl, rfl⟩
  | _, .group _, _ => ⟨_, _, rfl, rfl⟩
  | _, .list _, _ => ⟨_, _, rfl, rfl⟩
  | _, .closure true _ _ _, _ => ⟨_, _, rfl, rfl⟩
  | _, .closure false _ _ _, _ => ⟨_, _, rfl, rfl⟩
  | _, .condition _, h => by simp at h
  | _, .elvis _ _, h => by simp at h
  | _, .ternary _ _ _, h => by simp at h
  | _, .operand _ _, h => by simp at h
  | _, .operation _ _ _ _ _, h => by simp at h
  | _, .path _, h => by simp at h
  | _, .minus _, h => by simp at h

/-- The first token of a derivation starts an expression. -/
theorem head_tokens : {n : Nonterminal} → (t : Derivation n) →
    ∃ k ks, t.tokens = k :: ks ∧ k.startsExpression = true
  | _, .condition c => head_tokens c
  | _, .elvis c _ => by
    obtain ⟨k, ks, hk, hs⟩ := head_tokens c
    exact ⟨k, _, by rw [tokens, hk]; rfl, hs⟩
  | _, .ternary c _ _ => by
    obtain ⟨k, ks, hk, hs⟩ := head_tokens c
    exact ⟨k, _, by rw [tokens, hk]; rfl, hs⟩
  | _, .operand _ x => head_tokens x
  | _, .operation _ _ _ l _ => by
    obtain ⟨k, ks, hk, hs⟩ := head_tokens l
    exact ⟨k, _, by rw [tokens, hk]; rfl, hs⟩
  | _, .path p => by
    obtain ⟨k, ks, hk, hs⟩ := head_tokens_primary p (.inl rfl)
    exact ⟨k, ks, hk, by rw [TokenKind.startsExpression, hs]; rfl⟩
  | _, .minus _ => ⟨_, _, rfl, rfl⟩
  | _, .primary p => head_tokens p
  | _, .step o s m => by
    obtain ⟨k, ks, hk, hs⟩ := head_tokens o
    exact ⟨k, _, by rw [tokens, hk]; rfl, hs⟩
  | _, .stepCall o s m args => by
    obtain ⟨k, ks, hk, hs⟩ := head_tokens o
    exact ⟨k, _, by rw [tokens, hk]; rfl, hs⟩
  | _, .literal v => ⟨v.token, [], rfl, by
    rw [TokenKind.startsExpression, v.startsPrimary_token]; rfl⟩
  | _, .name _ => ⟨_, _, rfl, rfl⟩
  | _, .call _ _ => ⟨_, _, rfl, rfl⟩
  | _, .group _ => ⟨_, _, rfl, rfl⟩
  | _, .list _ => ⟨_, _, rfl, rfl⟩
  | _, .closure true _ _ _ => ⟨_, _, rfl, rfl⟩
  | _, .closure false _ _ _ => ⟨_, _, rfl, rfl⟩

end Derivation

/-! ### Passing over derivations -/

theorem BinaryOp.symbol_ne (op : BinaryOp) {k : TokenKind} (hk : k.strength = 0) :
    TokenKind.symbol op.symbol ≠ k := by
  intro h
  rw [← h, op.strength_symbol] at hk
  omega

theorem dotSymbol_ne {nullSafe : Bool} {s : Symbol} (h : (TokenKind.symbol s).strength ≠ 8) :
    TokenKind.symbol (dotSymbol nullSafe) ≠ .symbol s := by
  intro hs
  exact h (hs ▸ strength_dotSymbol nullSafe)

/-- Whether a token is neither a parenthesis nor a question mark. -/
def TokenKind.isPlain : TokenKind → Bool
  | .symbol .leftParen => false
  | .symbol .rightParen => false
  | .symbol .question => false
  | _ => true

theorem BinaryOp.isPlain_symbol (op : BinaryOp) : (TokenKind.symbol op.symbol).isPlain = true := by
  cases op with
  | coalesce => rfl
  | logical op => cases op <;> rfl
  | comparison op => cases op <;> rfl
  | arithmetic op => cases op <;> rfl

theorem Literal.isPlain_token (v : Literal) : v.token.isPlain = true := by
  cases v with
  | number x => cases x <;> rfl
  | _ => rfl

theorem MemberName.isPlain_token (m : MemberName) : m.token.isPlain = true := by
  cases m <;> rfl

theorem isPlain_dotSymbol (nullSafe : Bool) :
    (TokenKind.symbol (dotSymbol nullSafe)).isPlain = true := by
  cases nullSafe <;> rfl

/-- A function of tokens that passes over single tokens, over pairs of parentheses with something
between them that it passes over, and over a question mark, unless a point follows. -/
structure PassesOver {α : Type} (f : List TokenKind → α) : Prop where
  plain : ∀ {k : TokenKind}, k.isPlain = true → ∀ ks, f (k :: ks) = f ks
  parentheses : ∀ {ks : List TokenKind}, (∀ rest, f (ks ++ rest) = f rest) → ∀ rest,
    f (.symbol .leftParen :: (ks ++ .symbol .rightParen :: rest)) = f rest
  question : ∀ {k : TokenKind}, k ≠ .symbol .dot → ∀ ks,
    f (.symbol .question :: k :: ks) = f (k :: ks)

namespace PassesOver

variable {α : Type} {f : List TokenKind → α}

theorem parameterTokens (h : PassesOver f) (params : List String) (trailing : Bool)
    (rest : List TokenKind) : f (parameterTokens params trailing ++ rest) = f rest := by
  induction params with
  | nil => rfl
  | cons name params ih =>
    cases params with
    | nil =>
      rw [PathQuery.parameterTokens, List.cons_append, h.plain rfl]
      cases trailing with
      | false => rfl
      | true => exact h.plain rfl rest
    | cons next params =>
      rw [PathQuery.parameterTokens, List.cons_append, h.plain rfl, List.cons_append,
        h.plain rfl, ih]

theorem closureHead (h : PassesOver f) (keyword : Bool) (params : List String) (trailing : Bool)
    (rest : List TokenKind) : f (closureHead keyword params trailing ++ rest) = f rest := by
  have head : f (.symbol .leftParen :: (PathQuery.parameterTokens params trailing ++
      [.symbol .rightParen, .symbol .arrow]) ++ rest) = f rest := by
    rw [List.cons_append, List.append_assoc, List.cons_append, List.cons_append, List.nil_append,
      h.parentheses (h.parameterTokens params trailing), h.plain rfl]
  cases keyword with
  | false => exact head
  | true => exact (h.plain rfl _).trans head

/-- The first token of a derivation is no point. -/
theorem question_tokens (h : PassesOver f) {n : Nonterminal} (t : Derivation n)
    (rest : List TokenKind) :
    f (.symbol .question :: (t.tokens ++ rest)) = f (t.tokens ++ rest) := by
  obtain ⟨k, ks, hk, hstart⟩ := t.head_tokens
  rw [hk, List.cons_append]
  refine h.question ?_ _
  rintro rfl
  exact absurd hstart (by decide)

mutual

theorem derivation (h : PassesOver f) : {n : Nonterminal} → (t : Derivation n) →
    (rest : List TokenKind) → f (t.tokens ++ rest) = f rest
  | _, .condition c, rest => h.derivation c rest
  | _, .elvis c o, rest => by
    rw [Derivation.tokens, List.append_assoc, h.derivation c, List.cons_append, List.cons_append,
      h.question (by simp), h.plain rfl, h.derivation o]
  | _, .ternary c t o, rest => by
    rw [Derivation.tokens, List.append_assoc, h.derivation c, List.cons_append, List.append_assoc,
      h.question_tokens, h.derivation t, List.cons_append, h.plain rfl, h.derivation o]
  | _, .operand _ x, rest => h.derivation x rest
  | _, .operation _ op _ l r, rest => by
    rw [Derivation.tokens, List.append_assoc, h.derivation l, List.cons_append,
      h.plain op.isPlain_symbol, h.derivation r]
  | _, .path p, rest => h.derivation p rest
  | _, .minus x, rest => by
    rw [Derivation.tokens, List.cons_append, h.plain rfl, h.derivation x]
  | _, .primary p, rest => h.derivation p rest
  | _, .step o s m, rest => by
    rw [Derivation.tokens, List.append_assoc, h.derivation o, List.cons_append,
      h.plain (isPlain_dotSymbol s), List.cons_append, h.plain m.isPlain_token, List.nil_append]
  | _, .stepCall o s m args, rest => by
    rw [Derivation.tokens, List.append_assoc, h.derivation o, List.cons_append,
      h.plain (isPlain_dotSymbol s), List.cons_append, h.plain m.isPlain_token, List.cons_append,
      List.append_assoc, List.cons_append, List.nil_append, h.parentheses (h.items args)]
  | _, .literal v, rest => h.plain v.isPlain_token rest
  | _, .name _, rest => h.plain rfl rest
  | _, .call _ args, rest => by
    rw [Derivation.tokens, List.cons_append, h.plain rfl, List.cons_append, List.append_assoc,
      List.cons_append, List.nil_append, h.parentheses (h.items args)]
  | _, .group e, rest => by
    rw [Derivation.tokens, List.cons_append, List.append_assoc, List.cons_append, List.nil_append,
      h.parentheses (h.derivation e)]
  | _, .list es, rest => by
    rw [Derivation.tokens, List.cons_append, h.plain rfl, List.append_assoc, h.items es,
      List.cons_append, h.plain rfl, List.nil_append]
  | _, .closure keyword params trailing body, rest => by
    rw [Derivation.tokens, List.append_assoc, h.closureHead, h.derivation body]

theorem items (h : PassesOver f) : (es : Items) → (rest : List TokenKind) →
    f (es.tokens ++ rest) = f rest
  | .none, _ => rfl
  | .last e, rest => h.derivation e rest
  | .more e more, rest => by
    rw [Items.tokens, List.append_assoc, h.derivation e, List.cons_append, h.plain rfl,
      h.items more]

end

end PassesOver

/-! ### Parentheses -/

/-- Whether the first parenthesis that is closed but not opened stands right in front of an arrow;
`depth` counts the ones open. -/
def arrowBehind : (depth : Nat) → List TokenKind → Bool
  | _, [] => false
  | depth, k :: ks =>
    if k = .symbol .leftParen then arrowBehind (depth + 1) ks
    else if k = .symbol .rightParen then
      match depth with
      | 0 => ks.head? == some (.symbol .arrow)
      | depth + 1 => arrowBehind depth ks
    else arrowBehind depth ks

theorem arrowBehind_map (depth : Nat) (tokens : List Token) :
    Parser.arrowBehindClose depth tokens = arrowBehind depth (tokens.map Token.kind) := by
  induction tokens generalizing depth with
  | nil => rfl
  | cons token rest ih =>
    have next : rest.head?.any (·.kind == .symbol .arrow)
        = ((rest.map Token.kind).head? == some (.symbol .arrow)) := by
      cases rest <;> simp
    cases depth with
    | zero => simp only [List.map_cons, Parser.arrowBehindClose, arrowBehind, ih, next]
    | succ depth => simp only [List.map_cons, Parser.arrowBehindClose, arrowBehind, ih]

theorem arrowBehind_cons {k : TokenKind} (hl : k ≠ .symbol .leftParen)
    (hr : k ≠ .symbol .rightParen) (depth : Nat) (ks : List TokenKind) :
    arrowBehind depth (k :: ks) = arrowBehind depth ks := by
  cases depth <;> simp [arrowBehind, hl, hr]

theorem arrowBehind_leftParen (depth : Nat) (ks : List TokenKind) :
    arrowBehind depth (.symbol .leftParen :: ks) = arrowBehind (depth + 1) ks := by
  cases depth <;> simp [arrowBehind]

theorem arrowBehind_rightParen (depth : Nat) (ks : List TokenKind) :
    arrowBehind (depth + 1) (.symbol .rightParen :: ks) = arrowBehind depth ks := by
  simp [arrowBehind]

theorem arrowBehind_close (ks : List TokenKind) :
    arrowBehind 0 (.symbol .rightParen :: ks) = (ks.head? == some (.symbol .arrow)) := by
  simp [arrowBehind]

/-- Parentheses are balanced in a derivation, at any depth. -/
theorem passesOver_arrowBehind : PassesOver fun ks depth => arrowBehind depth ks where
  plain {k} hk ks := by
    funext depth
    refine arrowBehind_cons ?_ ?_ depth ks <;> rintro rfl <;> exact absurd hk (by decide)
  parentheses {ks} h rest := by
    funext depth
    -- Between the parentheses one more is open.
    have hks : arrowBehind (depth + 1) (ks ++ .symbol .rightParen :: rest) =
        arrowBehind (depth + 1) (.symbol .rightParen :: rest) := congrFun (h _) (depth + 1)
    show arrowBehind depth _ = arrowBehind depth rest
    rw [arrowBehind_leftParen, hks, arrowBehind_rightParen]
  question _ ks := by
    funext depth
    exact arrowBehind_cons (by simp) (by simp) depth _

theorem arrowBehind_parameterTokens (params : List String) (trailing : Bool)
    (rest : List TokenKind) :
    arrowBehind 0 (parameterTokens params trailing ++ rest) = arrowBehind 0 rest :=
  congrFun (passesOver_arrowBehind.parameterTokens params trailing rest) 0

theorem Derivation.arrowBehind_tokens {n : Nonterminal} (t : Derivation n)
    (rest : List TokenKind) : arrowBehind 0 (t.tokens ++ rest) = arrowBehind 0 rest :=
  congrFun (passesOver_arrowBehind.derivation t rest) 0

theorem Items.arrowBehind_tokens (es : Items) (rest : List TokenKind) :
    arrowBehind 0 (es.tokens ++ rest) = arrowBehind 0 rest :=
  congrFun (passesOver_arrowBehind.items es rest) 0

end PathQuery
