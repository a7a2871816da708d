/-
Whole queries.

* **`Parser.parse_of_greedy`** — what parsing a text comes to if its tokens have a greedy
  derivation: the tree, or the error of a limit that the derivation does not keep;
* **`Parser.exists_greedy_of_parse`** — an expression that is parsed is the tree of such a
  derivation;
* **`Parser.parse_sound_and_complete`** — the parser accepts the grammar, up to its limits.
-/
import PathQuery.Proofs.Derivation.Regrouping
import PathQuery.Proofs.Parser.Completeness
import PathQuery.Proofs.Token.Lexed

namespace PathQuery

/-- Whether a derivation keeps the limits of the parser; an expression takes a level itself. -/
structure Derivation.WithinLimits (t : Derivation .expression) : Prop where
  nesting : t.nesting + 1 ≤ maxNesting
  links : t.links ≤ maxChain

namespace Parser

variable {text : String} {stream : TokenStream}

/-- The tokens of characters, which need not be taken out of a text. -/
theorem tokenize_ofList (cs : List Char) :
    tokenize (String.ofList cs) = Lexer.stream ⟨⟨cs, .start⟩, false⟩ (cs.length + 1) := by
  rw [tokenize, Lexer.ofString, Cursor.ofString, String.toList_ofList]

theorem parse_of_tokenize (h : tokenize text = .ok stream) :
    Expr.parse text = (query.runOn ⟨stream, 0⟩).1 := by
  rw [Expr.parse, start, h]
  rfl

theorem exists_tokenize_of_parse {e : Expr} (h : Expr.parse text = .ok e) :
    ∃ stream, tokenize text = .ok stream := by
  cases ht : tokenize text with
  | ok stream => exact ⟨stream, rfl⟩
  | error error =>
    rw [Expr.parse, start, ht] at h
    exact absurd h (by simp [bind, Except.bind])

/-- A text is parsed if a condition on its tree can be computed. -/
theorem exists_parse_of_any (text : String) (p : Expr → Bool)
    (h : (Expr.parse text).toOption.any p = true) :
    ∃ e, Expr.parse text = .ok e ∧ p e = true := by
  cases hp : Expr.parse text with
  | ok e => rw [hp] at h; exact ⟨e, rfl, h⟩
  | error error => rw [hp] at h; exact absurd h (by simp [Except.toOption])

/-- What parsing comes to: the tree of a derivation within the limits, or the error of a limit that
it does not keep. -/
inductive Outcome (t : Derivation .expression) : Except ParseError Expr → Prop where
  | tree (within : t.WithinLimits) : Outcome t (.ok t.tree)
  | nested (position : Position) (lt_nesting : maxNesting < t.nesting + 1) :
      Outcome t (.error ⟨.tooDeep maxNesting, position⟩)
  | chained (position : Position) (lt_links : maxChain < t.links) :
      Outcome t (.error ⟨.tooDeep maxChain, position⟩)

theorem Outcome.eq_ok {t : Derivation .expression} {answer : Except ParseError Expr}
    (h : Outcome t answer) (hw : t.WithinLimits) : answer = .ok t.tree := by
  cases h with
  | tree => rfl
  | nested position hn => exact absurd hw.nesting (Nat.not_le_of_lt hn)
  | chained position hl => exact absurd hw.links (Nat.not_le_of_lt hl)

theorem parse_of_greedy (h : tokenize text = .ok stream) {t : Derivation .expression}
    (ht : t.IsGreedy) (hk : t.tokens = stream.kinds) : Outcome t (Expr.parse text) := by
  have hkinds : (ParserState.mk stream 0).kinds = t.tokens ++ [] := by
    rw [List.append_nil, hk]
    rfl
  have hread : Accepts expression ⟨stream, 0⟩ maxNesting (t.nesting + 1) (0 + t.links)
      t.tree [] 0 :=
    (t.isReadBy ht).isRead.nested maxNesting (Nat.zero_le _) hkinds
      ⟨Nat.zero_le _, by simp, by simp⟩
  rw [Nat.zero_add] at hread
  rw [parse_of_tokenize h, query]
  cases hread with
  | answer s' hn hp run hk' hl =>
    have hend : s'.stream.peek.kind = .endOfInput := by rw [s'.kind_peek, hk']; rfl
    rw [runOn_bind_of_ok run, runOn_bind_of_ok (runOn_peek s'), hend]
    exact .tree ⟨hn, hp⟩
  | nested position s' hn run =>
    rw [runOn_bind_of_error run]
    exact .nested position hn
  | chained position s' hp run =>
    rw [runOn_bind_of_error run]
    exact .chained position hp

/-- If an expression is parsed, it is the tree of the greedy derivation, which keeps the limits. -/
theorem tree_eq_of_greedy (h : tokenize text = .ok stream) {e : Expr} (he : Expr.parse text = .ok e)
    {t : Derivation .expression} (ht : t.IsGreedy) (hk : t.tokens = stream.kinds) :
    t.tree = e ∧ t.WithinLimits := by
  have houtcome := parse_of_greedy h ht hk
  rw [he] at houtcome
  cases houtcome with
  | tree within => exact ⟨rfl, within⟩

theorem exists_greedy_of_parse (h : tokenize text = .ok stream) {e : Expr}
    (he : Expr.parse text = .ok e) :
    ∃ t : Derivation .expression, t.IsGreedy ∧ t.tree = e ∧ t.tokens = stream.kinds := by
  rw [parse_of_tokenize h] at he
  have hquery : runOn query ⟨stream, 0⟩ = (.ok e, (runOn query ⟨stream, 0⟩).2) := Prod.ext he rfl
  rw [query] at hquery
  obtain ⟨e', s, hrun, hend⟩ := runOn_bind_eq_ok.1 hquery
  obtain ⟨t, hgreedy, rfl, hkinds, -, -⟩ := derives_expression (Nat.zero_le _) hrun
  rw [runOn_bind_of_ok (runOn_peek s)] at hend
  -- Only the end of the text lets the answer pass, and it is no token.
  split at hend
  case h_1 hkind =>
    have htree : t.tree = e := (runOn_pure_eq_ok.1 hend).1
    have hnil : s.kinds = [] := by
      cases hk : s.kinds with
      | nil => rfl
      | cons k ks =>
        have hmem : k ∈ stream.kinds := by
          change (ParserState.mk stream 0).kinds = _ at hkinds
          change k ∈ (ParserState.mk stream 0).kinds
          rw [hkinds, hk]
          simp
        rw [ParserState.kind_peek_of_cons hk] at hkind
        exact absurd (hkind ▸ hmem) (endOfInput_not_mem h)
    refine ⟨t, hgreedy, htree, ?_⟩
    rw [hnil, List.append_nil] at hkinds
    exact hkinds.symm
  case h_2 => exact absurd hend (by simp)
  case h_3 => exact absurd hend (by simp)
  case h_4 => exact absurd hend runOn_unexpected_ne_ok

/-- The parser accepts its grammar.  An expression is the tree of a greedy derivation of the tokens;
and where the tokens have any derivation, the only errors are those of the two limits, and the
greedy derivation does not keep the limit of the error. -/
theorem parse_sound_and_complete (h : tokenize text = .ok stream) :
    (∀ e, Expr.parse text = .ok e →
      ∃ t : Derivation .expression, t.IsGreedy ∧ t.tree = e ∧ t.tokens = stream.kinds) ∧
    (∀ t : Derivation .expression, t.tokens = stream.kinds →
      (∃ e, Expr.parse text = .ok e) ∨
      ∃ limit position, Expr.parse text = .error ⟨.tooDeep limit, position⟩ ∧
        ∃ greedy : Derivation .expression, greedy.IsGreedy ∧ greedy.tokens = stream.kinds ∧
          (limit = maxNesting ∧ maxNesting < greedy.nesting + 1 ∨
            limit = maxChain ∧ maxChain < greedy.links)) := by
  refine ⟨fun e he => exists_greedy_of_parse h he, fun t ht => ?_⟩
  obtain ⟨g, hgreedy, hk⟩ := t.exists_greedy
  rw [ht] at hk
  cases hp : Expr.parse text with
  | ok e => exact .inl ⟨e, rfl⟩
  | error e =>
    refine .inr ?_
    have houtcome := parse_of_greedy h hgreedy hk
    rw [hp] at houtcome
    cases houtcome with
    | nested position hn => exact ⟨maxNesting, position, rfl, g, hgreedy, hk, .inl ⟨rfl, hn⟩⟩
    | chained position hl => exact ⟨maxChain, position, rfl, g, hgreedy, hk, .inr ⟨rfl, hl⟩⟩

theorem exists_derivation_of_trailing_comma :
    ∃ t : Derivation .expression, t.IsGreedy ∧ t.tree = .call "f" [.variable "a"] ∧
      t.tokens = [.identifier "f", .symbol .leftParen, .identifier "a", .symbol .comma,
        .symbol .rightParen] :=
  (@parse_sound_and_complete "f(a,)" _ rfl).1 _ rfl

end Parser

end PathQuery
