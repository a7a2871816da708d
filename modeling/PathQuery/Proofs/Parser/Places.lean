/-
Where the errors of a query stand.

* **`Parser.Blames`** — a run that fails blames one of the tokens at hand, or the end behind them;
* **`Parser.blames_query`** — the parser does;
* **`Expr.parse_error_cases`** — an error of a query is that of its text, or stands at a token;
* **`isPlaceOf_of_answer`** — all tokens and all errors of a text stand at places of it.
-/
import PathQuery.Proofs.Parser.Closed
import PathQuery.Proofs.Token.Places

namespace PathQuery

/-! ### Streams -/

namespace TokenStream

/-- The tokens, and behind them the one for the end. -/
def withEnd (s : TokenStream) : List Token := s.tokens ++ [⟨.endOfInput, s.stop⟩]

/-- All tokens, and the end, stand at places of a class. -/
def StandsIn (P : Position → Prop) (s : TokenStream) : Prop := ∀ token ∈ s.withEnd, P token.position

variable {P : Position → Prop} {s : TokenStream}

theorem peek_mem_withEnd (s : TokenStream) : s.peek ∈ s.withEnd := by
  rw [withEnd, peek]
  cases s.tokens <;> simp

theorem StandsIn.peek (h : s.StandsIn P) : P s.peek.position := h _ s.peek_mem_withEnd

theorem StandsIn.tail (h : s.StandsIn P) : s.tail.StandsIn P := by
  intro token ht
  refine h token ?_
  rcases List.mem_append.1 ht with ht | ht
  · exact List.mem_append_left _ (List.mem_of_mem_tail ht)
  · exact List.mem_append_right _ ht

end TokenStream

/-! ### Runs of the parser -/

namespace Parser

/-- If all tokens at hand stand at places of a class, an error does, and so do the tokens that are
left. -/
structure Blames (P : Position → Prop) {α : Type} (p : Parser α) : Prop where
  error : ∀ {s : ParserState} {e : ParseError}, s.stream.StandsIn P →
    (runOn p s).1 = .error e → P e.position
  rest : ∀ {s : ParserState}, s.stream.StandsIn P → (runOn p s).2.stream.StandsIn P

variable {α β : Type} {P : Position → Prop}

theorem Blames.bind {p : Parser α} {f : α → Parser β}
    (hp : ∀ s : ParserState, s.stream.StandsIn P → (runOn p s).2.stream.StandsIn P ∧
      (∀ e, (runOn p s).1 = .error e → P e.position) ∧
      ∀ a, (runOn p s).1 = .ok a → Blames P (f a)) : Blames P (p >>= f) where
  error {s e} hs h := by
    obtain ⟨hrest, herror, hf⟩ := hp s hs
    rcases hrun : runOn p s with ⟨e' | a, s'⟩ <;> rw [hrun] at hrest herror hf
    · rw [runOn_bind_of_error hrun] at h
      exact herror e (congrArg Except.error (Except.error.inj h))
    · rw [runOn_bind_of_ok hrun] at h
      exact (hf a rfl).error hrest h
  rest {s} hs := by
    obtain ⟨hrest, herror, hf⟩ := hp s hs
    rcases hrun : runOn p s with ⟨e' | a, s'⟩ <;> rw [hrun] at hrest hf
    · rw [runOn_bind_of_error hrun]
      exact hrest
    · rw [runOn_bind_of_ok hrun]
      exact (hf a rfl).rest hrest

theorem Blames.pure (a : α) : Blames P (Pure.pure a : Parser α) where
  error _ h := absurd h (by simp)
  rest hs := hs

/-- A link is refused at the token at the front. -/
theorem Blames.link : Blames P link where
  error {s e} hs h := by
    rw [runOn_link] at h
    split at h
    · rw [← Except.error.inj h]
      exact hs.peek
    · exact absurd h (by simp)
  rest {s} hs := by
    rw [runOn_link]
    split <;> exact hs

theorem closed_blames (P : Position → Prop) : Closed P (Blames P) where
  pure := .pure
  throw fault position hposition :=
    { error := fun _ h => by rw [← Except.error.inj h]; exact hposition
      rest := fun hs => hs }
  bind hp hf := .bind fun s hs => ⟨hp.rest hs, fun _ => hp.error hs, fun a _ => hf a⟩
  peek_bind hf := .bind fun s hs =>
    ⟨hs, fun _ h => absurd h (by simp), fun token h => hf token (by
      rw [← Except.ok.inj h]; exact hs.peek)⟩
  advance_bind hf := .bind fun s hs =>
    ⟨hs.tail, fun _ h => absurd h (by simp), fun token h => hf token (by
      rw [← Except.ok.inj h]; exact hs.peek)⟩
  get_bind hf _ := .bind fun s hs => ⟨hs, fun _ h => absurd h (by simp), fun s _ => hf s⟩
  link := .link
  restoring hfirst hloop := by
    refine .bind fun s hs => ⟨hfirst.rest hs, fun _ => hfirst.error hs, fun a _ => ?_⟩
    refine .bind fun s hs => ⟨hs, fun _ h => absurd h (by simp), fun s _ => ?_⟩
    refine .bind fun s hs => ⟨(hloop a).rest hs, fun _ => (hloop a).error hs, fun b _ => ?_⟩
    exact .bind fun s hs => ⟨hs, fun _ h => absurd h (by simp), fun _ _ => .pure b⟩

theorem blames_query (P : Position → Prop) : Blames P query := (closed_blames P).query

end Parser

/-! ### Texts -/

namespace Lexer

/-- The tokens of a stream, and its end, are answers of the lexer. -/
theorem passes_stream (limit : Nat) : ∀ {l : Lexer} {stream : TokenStream},
    l.stream limit = .ok stream → stream.StandsIn l.cursor.Passes := by
  induction limit with
  | zero =>
    intro l stream h
    obtain rfl := Except.ok.inj h
    intro token ht
    obtain rfl := List.mem_singleton.1 ht
    exact .here _
  | succ limit ih =>
    intro l stream h
    have hreaches := l.reaches_next
    have hpasses := l.passes_next
    rw [Lexer.stream] at h
    split at h
    case h_1 => exact absurd h (by simp)
    case h_2 first l' hnext =>
      rw [hnext] at hreaches hpasses
      split at h
      case isTrue =>
        obtain rfl := Except.ok.inj h
        intro token ht
        obtain rfl := List.mem_singleton.1 ht
        exact hpasses
      case isFalse =>
        cases hrest : l'.stream limit with
        | error e => rw [hrest] at h; exact absurd h (by simp [Except.map])
        | ok rest =>
          rw [hrest] at h
          obtain rfl := Except.ok.inj h
          rintro token (_ | ⟨_, ht⟩)
          · exact hpasses
          · exact hreaches.passes (ih hrest token ht)

theorem passes_stream_error (limit : Nat) : ∀ {l : Lexer} {e : LexError},
    l.stream limit = .error e → l.cursor.Passes e.position := by
  induction limit with
  | zero => exact fun h => absurd h (by simp [Lexer.stream])
  | succ limit ih =>
    intro l e h
    have hreaches := l.reaches_next
    have hpasses := l.passes_next
    rw [Lexer.stream] at h
    split at h
    case h_1 e' l' hnext =>
      rw [hnext] at hpasses
      obtain rfl := Except.error.inj h
      exact hpasses
    case h_2 first l' hnext =>
      rw [hnext] at hreaches
      split at h
      case isTrue => exact absurd h (by simp)
      case isFalse =>
        cases hrest : l'.stream limit with
        | ok rest => rw [hrest] at h; exact absurd h (by simp [Except.map])
        | error e' =>
          rw [hrest] at h
          obtain rfl := Except.error.inj h
          exact hreaches.passes (ih hrest)

end Lexer

/-- An error of a query is the first error of its text, or it stands at one of the tokens of the
text or at its end. -/
theorem Expr.parse_error_cases {q : String} {e : ParseError} (h : Expr.parse q = .error e) :
    (∃ e', tokenize q = .error e' ∧ e = e'.toParseError) ∨
      ∃ stream, tokenize q = .ok stream ∧ ∃ token ∈ stream.withEnd, e.position = token.position := by
  rw [Expr.parse, Parser.start] at h
  cases ht : tokenize q with
  | error e' =>
    rw [ht] at h
    exact .inl ⟨e', rfl, (Except.error.inj h).symm⟩
  | ok stream =>
    rw [ht] at h
    have hblames := Parser.blames_query fun p => ∃ token ∈ stream.withEnd, p = token.position
    exact .inr ⟨stream, rfl, hblames.error (fun token ht => ⟨token, ht, rfl⟩) h⟩

/-- Whatever a lexer is asked, its answers stand at places of the text, and its tokens one behind
the other; an error of the parser stands where a token or the lexical error does, so at a place of
the text too. -/
theorem isPlaceOf_of_answer (text : String) :
    (∀ n, (∀ a ∈ (Lexer.ofString text).answers n, (placeOf a).IsPlaceOf text.toList) ∧
      (((Lexer.ofString text).answers n).filterMap properToken?).Pairwise
        fun s t => s.position.offset < t.position.offset) ∧
    ∀ e, Expr.parse text = .error e →
      ((∃ e', tokenize text = .error e' ∧ e = e'.toParseError) ∨
        ∃ stream, tokenize text = .ok stream ∧
          ∃ token ∈ stream.withEnd, e.position = token.position) ∧
      e.position.IsPlaceOf text.toList := by
  refine ⟨fun n => ⟨fun a => Lexer.isPlaceOf_answers, Lexer.pairwise_offset_lt n _⟩, ?_⟩
  intro e h
  have hcases := Expr.parse_error_cases h
  refine ⟨hcases, ?_⟩
  rcases hcases with ⟨e', ht, rfl⟩ | ⟨stream, ht, token, htoken, hposition⟩
  · exact (Lexer.passes_stream_error _ ht).isPlaceOf
  · rw [hposition]
    exact (Lexer.passes_stream _ ht token htoken).isPlaceOf

/-- A parenthesis that closes nothing, on the second line. -/
theorem isPlaceOf_of_unbalanced :
    Expr.parse "a +\n)" = .error ⟨.unbalanced .parenthesis, ⟨4, 2, 1⟩⟩ ∧
      (⟨4, 2, 1⟩ : Position).IsPlaceOf "a +\n)".toList := by
  have h : Expr.parse "a +\n)" = .error ⟨.unbalanced .parenthesis, ⟨4, 2, 1⟩⟩ := rfl
  exact ⟨h, ((isPlaceOf_of_answer "a +\n)").2 _ h).2⟩

end PathQuery
