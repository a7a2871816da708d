/-
What holds of every production, since it holds of the primitives.

* **`Parser.Closed`** — a predicate that the primitives satisfy and that is kept in sequence;
* **`Parser.Closed.expression`**, **`Parser.Closed.query`** — it is satisfied by the productions.

Design notes: an error is raised at the place of a token that has been looked at or taken, and some
of these places are handed on for a while (that of an opening delimiter).  So a predicate comes with
another one, of places, that all tokens satisfy; a production may use it for its errors.  What is
read by looking at the state must not depend on the links.
-/
import PathQuery.Proofs.Parser.Productions

namespace PathQuery

namespace Parser

/-- A predicate of parsers that the primitives satisfy and that is kept in sequence, where the
places of all tokens, and so of all errors, satisfy `P`. -/
structure Closed (P : Position → Prop) (C : ∀ {α : Type}, Parser α → Prop) : Prop where
  pure : ∀ {α : Type} (a : α), C (Pure.pure a)
  throw : ∀ {α : Type} (fault : ParseFault) {position : Position}, P position →
    C (MonadExcept.throw ⟨fault, position⟩ : Parser α)
  bind : ∀ {α β : Type} {p : Parser α} {f : α → Parser β}, C p → (∀ a, C (f a)) → C (p >>= f)
  peek_bind : ∀ {α : Type} {f : Token → Parser α}, (∀ token, P token.position → C (f token)) →
    C (peek >>= f)
  advance_bind : ∀ {α : Type} {f : Token → Parser α},
    (∀ token, P token.position → C (f token)) → C (advance >>= f)
  get_bind : ∀ {α : Type} {f : ParserState → Parser α}, (∀ s, C (f s)) →
    (∀ s links, f (s.withLinks links) = f s) → C (get >>= f)
  link : C link
  restoring : ∀ {α β : Type} {first : Parser α} {loop : α → Parser β}, C first →
    (∀ a, C (loop a)) →
      C (do
        let x ← first
        let links := (← get).links
        let result ← loop x
        modify fun s => { s with links := links }
        return result)

namespace Closed

variable {P : Position → Prop} {C : ∀ {α : Type}, Parser α → Prop} (h : Closed P C)
include h

/-! ### Small steps -/

theorem discard_advance : C (discard advance) := h.advance_bind fun _ _ => h.pure _

theorem remaining : C remaining := h.get_bind (fun _ => h.pure _) fun _ _ => rfl

theorem isNext (symbol : Symbol) : C (isNext symbol) := h.peek_bind fun _ _ => h.pure _

theorem unexpectedAt {α : Type} {token : Token} (ht : P token.position) (expected : Expected) :
    C (unexpectedAt token expected : Parser α) := h.throw _ ht

theorem unexpected {α : Type} (expected : Expected) : C (unexpected expected : Parser α) :=
  h.peek_bind fun _ ht => h.unexpectedAt ht expected

theorem expect (symbol : Symbol) (expected : Expected) : C (expect symbol expected) := by
  refine h.bind (h.isNext symbol) fun b => ?_
  split
  · exact h.discard_advance
  · exact h.unexpected expected

theorem close (delimiter : Delimiter) {opened : Position} (ho : P opened) :
    C (close delimiter opened) := by
  refine h.peek_bind fun token _ => ?_
  split
  · exact h.discard_advance
  · split
    · exact h.throw _ ho
    · exact h.unexpected _

/-! ### Loops -/

theorem chainRest {operator : TokenKind → Option (Expr → Expr → Expr)} {operand : Parser Expr}
    (hoperand : C operand) (limit : Nat) (left : Expr) :
    C (chainRest operator operand limit left) := by
  induction limit generalizing left with
  | zero => exact h.pure left
  | succ limit ih =>
    rw [Parser.chainRest]
    refine h.peek_bind fun token _ => ?_
    split
    · exact h.pure left
    · exact h.bind h.link fun _ => h.bind h.discard_advance fun _ =>
        h.bind hoperand fun right => ih _

theorem chain {operator : TokenKind → Option (Expr → Expr → Expr)} {operand : Parser Expr}
    (hoperand : C operand) : C (chain operator operand) :=
  h.restoring hoperand fun first => h.chainRest hoperand (maxChain + 1) first

theorem items {expression : Parser Expr} (hexpression : C expression) (delimiter : Delimiter)
    {opened : Position} (ho : P opened) (limit : Nat) :
    C (items expression delimiter opened limit) := by
  induction limit with
  | zero => exact h.throw _ ho
  | succ limit ih =>
    rw [Parser.items]
    refine h.peek_bind fun token _ => ?_
    split
    · exact h.bind h.discard_advance fun _ => h.pure _
    · split
      · exact h.throw _ ho
      · refine h.bind hexpression fun first => h.peek_bind fun behind _ => ?_
        have hrest : C (do
            let rest ← Parser.items expression delimiter opened limit
            return first :: rest) := h.bind ih fun _ => h.pure _
        split
        · exact h.bind h.discard_advance fun _ => hrest
        · split
          · exact hrest
          · split
            · exact h.bind (h.throw _ ho) fun _ => hrest
            · exact h.bind (h.unexpected _) fun _ => hrest

theorem parameters (limit : Nat) : C (parameters limit) := by
  induction limit with
  | zero => exact h.unexpected _
  | succ limit ih =>
    rw [Parser.parameters]
    refine h.bind (h.isNext _) fun atEnd => ?_
    split
    · exact h.pure []
    · refine h.peek_bind fun token _ => ?_
      split
      · rename_i name _
        have hrest : C (do
            let rest ← Parser.parameters limit
            return name :: rest) := h.bind ih fun _ => h.pure _
        refine h.bind h.discard_advance fun _ => h.bind (h.isNext _) fun last => ?_
        split
        · exact h.bind (h.expect _ _) fun _ => hrest
        · exact hrest
      · exact h.unexpected _

/-! ### Productions -/

theorem memberName : C memberName := by
  refine h.peek_bind fun token _ => ?_
  split
  · exact h.bind h.discard_advance fun _ => h.pure _
  · split
    · exact h.bind (h.unexpected _) fun _ => h.bind h.discard_advance fun _ => h.pure _
    · exact h.bind h.discard_advance fun _ => h.pure _
  · exact h.unexpected _

section

variable {nested : Nested} (hexpression : C nested.expression)
include hexpression

theorem list (delimiter : Delimiter) {opened : Position} (ho : P opened) :
    C (list nested delimiter opened) :=
  h.bind h.remaining fun limit => h.items hexpression delimiter ho limit

theorem closure {opened : Position} (ho : P opened) : C (closure nested opened) :=
  h.bind h.remaining fun limit => h.bind (h.parameters limit) fun _ =>
    h.bind (h.close _ ho) fun _ => h.bind (h.expect _ _) fun _ =>
      h.bind hexpression fun _ => h.pure _

theorem primary : C (primary nested) := by
  rw [Parser.primary]
  refine h.advance_bind fun token ht => ?_
  cases token.kind with
  | identifier name =>
    refine h.bind (h.isNext _) fun called => ?_
    split
    · exact h.pure _
    · refine h.advance_bind fun opener ho => h.get_bind (fun s => ?_) fun _ _ => rfl
      split
      · exact h.closure hexpression ho
      · exact h.bind (h.list hexpression _ ho) fun _ => h.pure _
  | symbol symbol =>
    cases symbol with
    | leftParen =>
      refine h.get_bind (fun s => ?_) fun _ _ => rfl
      split
      · exact h.closure hexpression ht
      · exact h.bind hexpression fun _ => h.bind (h.close _ ht) fun _ => h.pure _
    | leftBracket => exact h.bind (h.list hexpression _ ht) fun _ => h.pure _
    | rightParen => exact h.throw _ ht
    | rightBracket => exact h.throw _ ht
    -- No other symbol starts a primary expression.
    | _ => exact h.unexpectedAt ht _
  | endOfInput => exact h.unexpectedAt ht _
  | _ => exact h.pure _

theorem members (limit : Nat) (object : Expr) (nullSafe : Bool) :
    C (members nested limit object nullSafe) := by
  induction limit generalizing object nullSafe with
  | zero => exact h.pure object
  | succ limit ih =>
    rw [Parser.members]
    refine h.peek_bind fun token _ => ?_
    dsimp only
    split
    · exact h.pure object
    · refine h.bind h.link fun _ => h.bind h.discard_advance fun _ =>
        h.bind h.memberName fun name => h.bind (h.isNext _) fun called => ?_
      split
      · exact h.advance_bind fun opener ho => h.bind (h.list hexpression _ ho) fun _ => ih _ _
      · exact ih _ _

theorem path : C (path nested) :=
  h.restoring (h.primary hexpression) fun object =>
    h.members hexpression (maxChain + 1) object false

theorem unary (hunary : C nested.unary) : C (unary nested) := by
  refine h.bind (h.isNext _) fun negative => ?_
  split
  · exact h.bind h.discard_advance fun _ => h.bind hunary fun _ => h.pure _
  · exact h.path hexpression

theorem conditional (hunary : C nested.unary) : C (conditional nested) := by
  -- Six chains, one around the other.
  have hcoalesce : C (coalesce nested) :=
    h.chain (h.chain (h.chain (h.chain (h.chain (h.chain (h.unary hexpression hunary))))))
  refine h.bind hcoalesce fun condition => h.bind (h.isNext _) fun asked => ?_
  split
  · exact h.pure condition
  · refine h.bind h.discard_advance fun _ => h.bind (h.isNext _) fun short => ?_
    split
    · exact h.bind h.discard_advance fun _ => h.bind hexpression fun _ => h.pure _
    · exact h.bind hexpression fun _ => h.bind (h.expect _ _) fun _ =>
        h.bind hexpression fun _ => h.pure _

end

/-! ### Nesting -/

theorem tooDeep : C (tooDeep : Parser Expr) := h.peek_bind fun _ ht => h.throw _ ht

/-- Both nesting productions satisfy the predicate, by induction on the levels that are left. -/
theorem nestedAt (levels : Nat) :
    C (nestedAt levels).expression ∧ C (nestedAt levels).unary := by
  induction levels with
  | zero => exact ⟨h.tooDeep, h.tooDeep⟩
  | succ levels ih => exact ⟨h.conditional ih.1 ih.2, h.unary ih.1 ih.2⟩

theorem expression : C expression := (h.nestedAt maxNesting).1

theorem query : C query := by
  refine h.bind h.expression fun result => h.peek_bind fun token ht => ?_
  split
  · exact h.pure result
  · exact h.throw _ ht
  · exact h.throw _ ht
  · exact h.unexpected _

end Closed

end Parser

end PathQuery
