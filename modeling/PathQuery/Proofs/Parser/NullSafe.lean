/-
Queries in which one dot is made null-safe.

* **`parse_with_nullSafe_dot`** — a query with `?.` for a dot has the same tree, null-safe from that
  step on; in front of a digit it has none;
* **`not_parse_with_nullSafe_index`** — so it is with `a.0`.
-/
import PathQuery.Proofs.Derivation.Marked
import PathQuery.Proofs.Expr.Parsed
import PathQuery.Proofs.Parser.Query
import PathQuery.Proofs.Token.Inserted

namespace PathQuery

theorem questionDot_of_infix {ks : List TokenKind}
    (h : [.symbol .question, .symbol .dot] <:+: ks) : questionDot ks = true := by
  obtain ⟨before, behind, rfl⟩ := h
  induction before with
  | nil => rfl
  | cons k before ih =>
    rw [List.append_assoc, List.cons_append, questionDot, ← List.append_assoc, ih, Bool.or_true]

/-- No query has a question mark in front of a point. -/
theorem not_infix_of_parse {text : String} {stream : TokenStream} (ht : tokenize text = .ok stream)
    {e : Expr} (he : Expr.parse text = .ok e) :
    ¬ [.symbol .question, .symbol .dot] <:+: stream.kinds := by
  obtain ⟨t, -, -, htokens⟩ := Parser.exists_greedy_of_parse ht he
  intro hinfix
  rw [← htokens] at hinfix
  have hquestion := questionDot_of_infix hinfix
  rw [t.questionDot_tokens] at hquestion
  exact absurd hquestion (by decide)

/-- A query in which a question mark is put in front of a dot.  If no digit follows the dot, it is
accepted, and its tree is that of the query, but with the step of the dot and the later steps of the
same chain null-safe.  If one does, the two characters are two tokens and no query. -/
theorem parse_with_nullSafe_dot {text : String} {stream : TokenStream} {e : Expr}
    (ht : tokenize text = .ok stream) (he : Expr.parse text = .ok e) {k : Nat} {place : Position}
    (hk : stream.tokens[k]? = some ⟨.symbol .dot, place⟩) :
    ∃ before behind, text.toList = before ++ '.' :: behind ∧ before.length = place.offset ∧
      (startsWithDigit behind = false →
        ∃ t : Derivation .expression, t.IsGreedy ∧ t.tokens = stream.kinds ∧ t.tree = e ∧
          Expr.parse (String.ofList (before ++ '?' :: '.' :: behind)) = .ok (t.treeFrom k 0)) ∧
      (startsWithDigit behind = true →
        ∀ e', Expr.parse (String.ofList (before ++ '?' :: '.' :: behind)) ≠ .ok e') := by
  have hreads := reads_of_tokenize ht
  obtain ⟨before, behind, htext, hplace⟩ := hreads.exists_dot hk
  have hlexes : Lexes false (String.ofList (before ++ '?' :: '.' :: behind)).toList
      (stream.kinds.take k ++ (questionedDot behind ++ stream.kinds.drop (k + 1))) := by
    rw [String.toList_ofList]
    exact hreads.insertQuestion (not_infix_of_parse ht he) hk htext hplace
  obtain ⟨stream', ht', hkinds'⟩ := hlexes.tokenize
  refine ⟨before, behind, htext, by rw [hplace]; exact (Nat.zero_add _).symm, ?_, ?_⟩
  · intro hdigit
    obtain ⟨t, hgreedy, htree, htokens⟩ := Parser.exists_greedy_of_parse ht he
    refine ⟨t, hgreedy, htokens, htree, ?_⟩
    -- The tokens are those of the derivation with the step marked.
    have hkind : stream.kinds[k]? = some (.symbol .dot) := by
      rw [TokenStream.kinds, List.getElem?_map, hk]
      rfl
    have hdot := markDot_eq hkind 0
    rw [Nat.zero_add] at hdot
    have hmark : (t.mark k 0).tokens = stream'.kinds := by
      rw [t.tokens_mark, htokens, hdot, hkinds', questionedDot, hdigit]
      rfl
    -- The parser counts the same, so that the limits are kept.
    have halike := t.alike_mark k 0
    have hwithin : t.WithinLimits := (Parser.tree_eq_of_greedy ht he hgreedy htokens).2
    have hwithin' : (t.mark k 0).WithinLimits :=
      ⟨by rw [halike.nesting]; exact hwithin.nesting, by rw [halike.links]; exact hwithin.links⟩
    rw [← t.tree_mark]
    exact (Parser.parse_of_greedy ht' (halike.isGreedy hgreedy) hmark).eq_ok hwithin'
  · intro hdigit e' he'
    refine not_infix_of_parse ht' he' ⟨stream.kinds.take k, stream.kinds.drop (k + 1), ?_⟩
    rw [hkinds', questionedDot, if_pos hdigit, List.append_assoc]

/-- The mark at the first step of a chain makes both steps null-safe. -/
theorem parse_with_nullSafe_dot_of_chain :
    ∃ t : Derivation .expression, t.IsGreedy ∧
      t.tree = .member (.member (.variable "a") "b" false) "c" false ∧
      Expr.parse "a?.b.c" = .ok (t.treeFrom 1 0) := by
  have ht : tokenize "a.b.c" = .ok ⟨[⟨.identifier "a", ⟨0, 1, 1⟩⟩, ⟨.symbol .dot, ⟨1, 1, 2⟩⟩,
      ⟨.identifier "b", ⟨2, 1, 3⟩⟩, ⟨.symbol .dot, ⟨3, 1, 4⟩⟩, ⟨.identifier "c", ⟨4, 1, 5⟩⟩],
      ⟨5, 1, 6⟩⟩ := rfl
  have he : Expr.parse "a.b.c" = .ok (.member (.member (.variable "a") "b" false) "c" false) := rfl
  obtain ⟨before, behind, htext, hlength, hname, -⟩ :=
    @parse_with_nullSafe_dot "a.b.c" _ _ ht he 1 ⟨1, 1, 2⟩ rfl
  obtain ⟨rfl, hbehind⟩ := List.append_inj
    (show ['a'] ++ '.' :: ['b', '.', 'c'] = before ++ '.' :: behind from htext) hlength.symm
  obtain ⟨-, rfl⟩ := List.cons.inj hbehind
  obtain ⟨t, hgreedy, -, htree, hparse⟩ := hname rfl
  exact ⟨t, hgreedy, htree, hparse⟩

/-- In front of a digit a dot has no null-safe form: the dot would be part of the number. -/
theorem not_parse_with_nullSafe_index :
    tokenize "a.0" = .ok ⟨[⟨.identifier "a", ⟨0, 1, 1⟩⟩, ⟨.symbol .dot, ⟨1, 1, 2⟩⟩,
      ⟨.integer 0, ⟨2, 1, 3⟩⟩], ⟨3, 1, 4⟩⟩ ∧
    Expr.parse "a.0" = .ok (.member (.variable "a") "0" false) ∧
    Expr.parse "a?.0" =
      .error ⟨.unexpectedToken .expression (.symbol .dot), ⟨2, 1, 3⟩⟩ := ⟨rfl, rfl, rfl⟩

end PathQuery
