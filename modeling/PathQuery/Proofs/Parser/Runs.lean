/-
Runs of the parser, seen through the kinds of the tokens at hand.

* **`ParserState.kinds`** — what is left to read, without places;
* **`Parser.runOn_bind`, `Parser.runOn_bind_eq_ok`** — a run of two parsers, forwards and backwards;
* **`Parser.runOn_advance`, `Parser.runOn_link`, ...** — one equation for each primitive.
-/
import PathQuery.Expr.Parse

namespace PathQuery

namespace ParserState

/-- The kinds of the tokens at hand. -/
def kinds (s : ParserState) : List TokenKind := s.stream.tokens.map Token.kind

/-- The state behind the first token. -/
def advanced (s : ParserState) : ParserState := { s with stream := s.stream.tail }

/-- The state with one more link. -/
def linked (s : ParserState) : ParserState := { s with links := s.links + 1 }

/-- The state with the links set back. -/
def withLinks (s : ParserState) (links : Nat) : ParserState := { s with links := links }

@[simp] theorem kinds_advanced (s : ParserState) : s.advanced.kinds = s.kinds.tail := by
  simp [kinds, advanced, TokenStream.tail, List.map_tail]

@[simp] theorem links_advanced (s : ParserState) : s.advanced.links = s.links := rfl

@[simp] theorem kinds_linked (s : ParserState) : s.linked.kinds = s.kinds := rfl

@[simp] theorem links_linked (s : ParserState) : s.linked.links = s.links + 1 := rfl

@[simp] theorem kinds_withLinks (s : ParserState) (links : Nat) :
    (s.withLinks links).kinds = s.kinds := rfl

@[simp] theorem links_withLinks (s : ParserState) (links : Nat) :
    (s.withLinks links).links = links := rfl

/-- The kind of the first token, or that of the end. -/
theorem kind_peek (s : ParserState) : s.stream.peek.kind = s.kinds.headD .endOfInput := by
  cases h : s.stream.tokens <;> simp [TokenStream.peek, kinds, h]

theorem kind_peek_of_cons {s : ParserState} {k : TokenKind} {ks : List TokenKind}
    (h : s.kinds = k :: ks) : s.stream.peek.kind = k := by
  rw [kind_peek, h, List.headD_cons]

theorem kinds_advanced_of_cons {s : ParserState} {k : TokenKind} {ks : List TokenKind}
    (h : s.kinds = k :: ks) : s.advanced.kinds = ks := by
  rw [kinds_advanced, h, List.tail_cons]

/-- A token other than that of the end stands at the front of what is left. -/
theorem kinds_eq_cons {s : ParserState} (h : s.stream.peek.kind ≠ .endOfInput) :
    s.kinds = s.stream.peek.kind :: s.advanced.kinds := by
  rw [kind_peek] at h ⊢
  rw [kinds_advanced]
  cases hk : s.kinds with
  | nil => rw [hk] at h; exact absurd rfl h
  | cons k ks => rfl

end ParserState

namespace Parser

variable {α β : Type}

/-! ### Runs -/

@[simp] theorem runOn_pure (a : α) (s : ParserState) : runOn (pure a) s = (.ok a, s) := rfl

theorem runOn_pure_eq_ok {a b : α} {s s' : ParserState} :
    runOn (pure a) s = (.ok b, s') ↔ a = b ∧ s = s' := by
  rw [runOn_pure, Prod.mk.injEq, Except.ok.injEq]

@[simp] theorem runOn_throw (e : ParseError) (s : ParserState) :
    runOn (throw e : Parser α) s = (.error e, s) := rfl

theorem runOn_bind (p : Parser α) (f : α → Parser β) (s : ParserState) :
    runOn (p >>= f) s = match runOn p s with
      | (.ok a, s) => runOn (f a) s
      | (.error e, s) => (.error e, s) := by
  show (match p s with | (a, s) => ExceptT.bindCont f a s) =
    match p s with
    | (.ok a, s) => f a s
    | (.error e, s) => (.error e, s)
  rcases p s with ⟨e | a, s⟩ <;> rfl

theorem runOn_bind_of_ok {p : Parser α} {s s' : ParserState} {a : α}
    (h : runOn p s = (.ok a, s')) (f : α → Parser β) : runOn (p >>= f) s = runOn (f a) s' := by
  rw [runOn_bind, h]

theorem runOn_bind_of_error {p : Parser α} {s s' : ParserState} {e : ParseError}
    (h : runOn p s = (.error e, s')) (f : α → Parser β) : runOn (p >>= f) s = (.error e, s') := by
  rw [runOn_bind, h]

/-- A run of two parsers gives an answer if and only if both do. -/
theorem runOn_bind_eq_ok {p : Parser α} {f : α → Parser β} {s s' : ParserState} {b : β} :
    runOn (p >>= f) s = (.ok b, s') ↔
      ∃ a s₁, runOn p s = (.ok a, s₁) ∧ runOn (f a) s₁ = (.ok b, s') := by
  rw [runOn_bind]
  rcases h : runOn p s with ⟨e | a, s₁⟩
  · simp
  · constructor
    · exact fun hb => ⟨a, s₁, rfl, hb⟩
    · rintro ⟨a', s', ha, hb⟩
      simp only [Prod.mk.injEq, Except.ok.injEq] at ha
      obtain ⟨rfl, rfl⟩ := ha
      exact hb

@[simp] theorem runOn_map (f : α → β) (p : Parser α) (s : ParserState) :
    runOn (f <$> p) s = ((runOn p s).1.map f, (runOn p s).2) := by
  show runOn (p >>= fun a => pure (f a)) s = _
  rw [runOn_bind]
  rcases runOn p s with ⟨e | a, s⟩ <;> rfl

/-! ### Primitives -/

@[simp] theorem runOn_peek (s : ParserState) : runOn peek s = (.ok s.stream.peek, s) := rfl

@[simp] theorem runOn_advance (s : ParserState) :
    runOn advance s = (.ok s.stream.peek, s.advanced) := rfl

@[simp] theorem runOn_discard_advance (s : ParserState) :
    runOn (discard advance) s = (.ok (), s.advanced) := runOn_map _ advance s

@[simp] theorem runOn_remaining (s : ParserState) :
    runOn remaining s = (.ok s.kinds.length, s) := by
  rw [ParserState.kinds, List.length_map]
  rfl

@[simp] theorem runOn_isNext (symbol : Symbol) (s : ParserState) :
    runOn (isNext symbol) s = (.ok (s.stream.peek.kind == .symbol symbol), s) := rfl

@[simp] theorem runOn_get (s : ParserState) : runOn (get : Parser ParserState) s = (.ok s, s) := rfl

@[simp] theorem runOn_withLinks (links : Nat) (s : ParserState) :
    runOn (modify fun s => { s with links := links }) s = (.ok (), s.withLinks links) := rfl

theorem runOn_link (s : ParserState) : runOn link s =
    if maxChain ≤ s.links then (.error ⟨.tooDeep maxChain, s.stream.peek.position⟩, s)
    else (.ok (), s.linked) := by
  by_cases h : maxChain ≤ s.links
  · rw [link, runOn_bind_of_ok (runOn_get s), if_pos h, if_pos h]
    rfl
  · rw [link, runOn_bind_of_ok (runOn_get s), if_neg h, if_neg h]
    rfl

theorem runOn_link_eq_ok {s s' : ParserState} :
    runOn link s = (.ok (), s') ↔ s.links < maxChain ∧ s.linked = s' := by
  rw [runOn_link]
  split <;> simp <;> omega

theorem runOn_unexpectedAt_ne_ok {token : Token} {expected : Expected} {s s' : ParserState}
    {a : α} : runOn (unexpectedAt token expected) s ≠ (.ok a, s') := by
  simp [unexpectedAt]

theorem runOn_unexpected_ne_ok {expected : Expected} {s s' : ParserState} {a : α} :
    runOn (unexpected expected) s ≠ (.ok a, s') := by
  intro h
  rw [unexpected, runOn_bind_of_ok (runOn_peek s)] at h
  exact runOn_unexpectedAt_ne_ok h

theorem runOn_expect_eq_ok {symbol : Symbol} {expected : Expected} {s s' : ParserState} :
    runOn (expect symbol expected) s = (.ok (), s') ↔
      s.kinds = .symbol symbol :: s'.kinds ∧ s.advanced = s' := by
  rw [expect, runOn_bind_of_ok (runOn_isNext symbol s)]
  by_cases h : s.stream.peek.kind = .symbol symbol
  · have hk := s.kinds_eq_cons (by simp [h])
    rw [h] at hk ⊢
    simp only [beq_self_eq_true, if_true, runOn_discard_advance, Prod.mk.injEq, true_and]
    constructor
    · rintro rfl
      exact ⟨hk, rfl⟩
    · exact And.right
  · rw [if_neg (by simpa using h)]
    constructor
    · exact fun hr => absurd hr runOn_unexpected_ne_ok
    · exact fun hk => absurd (ParserState.kind_peek_of_cons hk.1) h

end Parser

end PathQuery
