/-
The canonical text is parsed again.

* **`Expr.parse_canonical`** — what parsing the canonical text of a tree comes to;
* **`Expr.parse_canonical_of_isWellFormed`** — a well-formed tree is read back as itself, or exceeds
  a limit;
* **`Expr.reparses_iff`** — which of the trees that were parsed have a text that means the same.

Design notes: the sign of a zero is not seen by the equality of trees, but it is written and read
back, so that well-formed trees come back exactly.
-/
import PathQuery.Proofs.Expr.Derivation
import PathQuery.Proofs.Expr.Parsed
import PathQuery.Proofs.Parser.Query

namespace PathQuery

namespace Expr

/-- What parsing the canonical text comes to, if no null-safe step is by number. -/
theorem parse_canonical {e : Expr} (hw : e.all isWritable = true)
    (hindex : e.all indexIsPlain = true) :
    Parser.Outcome e.derivation.ofUnary (Expr.parse e.canonical) := by
  obtain ⟨stream, hstream, hkinds⟩ := tokenize_canonical hw
  refine Parser.parse_of_greedy hstream ?_ ?_
  · exact (Derivation.isGreedy_ofUnary _).2 e.isGreedy_derivation
  · rw [Derivation.tokens_ofUnary, tokens_derivation e hw hindex, hkinds]

/-- A text with a null-safe step by number is not parsed. -/
theorem indexIsPlain_of_parse_canonical {e e' : Expr} (hw : e.all isWritable = true)
    (h : Expr.parse e.canonical = .ok e') : e.all indexIsPlain = true := by
  obtain ⟨stream, hstream, hkinds⟩ := tokenize_canonical hw
  obtain ⟨t, -, -, ht⟩ := Parser.exists_greedy_of_parse hstream h
  exact indexIsPlain_of_derivation (ht.trans hkinds)

/-- What is parsed is writable. -/
theorem isWritable_of_parse {q : String} {e : Expr} (h : Expr.parse q = .ok e) :
    e.all isWritable = true := by
  obtain ⟨stream, hstream⟩ := Parser.exists_tokenize_of_parse h
  obtain ⟨t, -, rfl, ht⟩ := Parser.exists_greedy_of_parse hstream h
  exact t.isWritable_tree fun k hk => isLexed_tokenize hstream k (ht ▸ hk)

/-! ### Reading back -/

/-- The trees whose canonical text stands for them, if it keeps the limits. -/
structure IsWellFormed (e : Expr) : Prop where
  writable : e.all isWritable = true
  index_plain : e.all indexIsPlain = true
  finite : e.all isFiniteFloat = true
  null_safe : e.all keepsNullSafe = true

theorem IsWellFormed.reread {e : Expr} (h : e.IsWellFormed) : e.all isReread = true := by
  have hand := all_and isFiniteFloat keepsNullSafe e
  rw [h.finite, h.null_safe] at hand
  exact hand

/-- A well-formed tree is read back from its canonical text, unless the text nests deeper or has
longer chains than the parser allows. -/
theorem parse_canonical_of_isWellFormed {e : Expr} (h : e.IsWellFormed) :
    e.derivation.ofUnary.WithinLimits ∧ Expr.parse e.canonical = .ok e ∨
      ∃ position,
        maxNesting < e.derivation.ofUnary.nesting + 1 ∧
            Expr.parse e.canonical = .error ⟨.tooDeep maxNesting, position⟩ ∨
          maxChain < e.derivation.ofUnary.links ∧
            Expr.parse e.canonical = .error ⟨.tooDeep maxChain, position⟩ := by
  have htree : e.derivation.ofUnary.tree = e := by
    rw [Derivation.tree_ofUnary, tree_derivation e h.writable h.reread]
  have houtcome := parse_canonical h.writable h.index_plain
  cases hp : Expr.parse e.canonical with
  | ok e' =>
    rw [hp] at houtcome
    cases houtcome with
    | tree within => exact .inl ⟨within, by rw [htree]⟩
  | error error =>
    rw [hp] at houtcome
    cases houtcome with
    | nested position hn => exact .inr ⟨position, .inl ⟨hn, rfl⟩⟩
    | chained position hl => exact .inr ⟨position, .inr ⟨hl, rfl⟩⟩

theorem parse_canonical_of_quoted :
    Expr.parse (Expr.canonical (.memberCall (.literal (.number (.integer (-1)))) "max"
        [.closure ["x"] (.member (.variable "x") "0" false), .literal (.string "it's")] true)) =
      .ok (.memberCall (.literal (.number (.integer (-1)))) "max"
        [.closure ["x"] (.member (.variable "x") "0" false), .literal (.string "it's")] true) := by
  have h : IsWellFormed (.memberCall (.literal (.number (.integer (-1)))) "max"
      [.closure ["x"] (.member (.variable "x") "0" false), .literal (.string "it's")] true) :=
    ⟨by decide +kernel, by decide +kernel, by decide +kernel, by decide +kernel⟩
  rcases parse_canonical_of_isWellFormed h with ⟨-, hp⟩ | ⟨position, ⟨hn, -⟩ | ⟨hl, -⟩⟩
  · exact hp
  · exact absurd hn (by decide +kernel)
  · exact absurd hl (by decide +kernel)

/-- The canonical text of what was parsed is parsed as the same tree, up to the sign of zero,
exactly if no null-safe step is by number, no plain step stands directly on a null-safe one, all
floats are finite, and the text keeps the limits. -/
theorem reparses_iff {q : String} {e : Expr} (h : Expr.parse q = .ok e) :
    (∃ e', Expr.parse e.canonical = .ok e' ∧ e'.same e = true) ↔
      e.all indexIsPlain = true ∧ e.all isFiniteFloat = true ∧ e.all keepsNullSafe = true ∧
        e.derivation.ofUnary.WithinLimits := by
  have hw : e.all isWritable = true := isWritable_of_parse h
  have hsame : e.derivation.ofUnary.tree.same e = e.all isReread := by
    rw [Derivation.tree_ofUnary, same_derivation e hw]
  have hand : e.all isReread = (e.all isFiniteFloat && e.all keepsNullSafe) :=
    all_and isFiniteFloat keepsNullSafe e
  constructor
  · rintro ⟨e', hp, he'⟩
    have hindex : e.all indexIsPlain = true := indexIsPlain_of_parse_canonical hw hp
    have houtcome := parse_canonical hw hindex
    rw [hp] at houtcome
    cases houtcome with
    | tree within =>
      rw [hsame, hand, Bool.and_eq_true] at he'
      exact ⟨hindex, he'.1, he'.2, within⟩
  · rintro ⟨hindex, hfinite, hsafe, within⟩
    have hreread : e.derivation.ofUnary.tree.same e = true := by
      rw [hsame, hand, hfinite, hsafe]
      rfl
    have houtcome := parse_canonical hw hindex
    cases hp : Expr.parse e.canonical with
    | ok e' =>
      rw [hp] at houtcome
      cases houtcome with
      | tree => exact ⟨_, rfl, hreread⟩
    | error error =>
      rw [hp] at houtcome
      cases houtcome with
      | nested position hn => exact absurd within.nesting (Nat.not_le.2 hn)
      | chained position hl => exact absurd within.links (Nat.not_le.2 hl)

theorem reparses_member :
    ∃ e', Expr.parse (Expr.canonical (.member (.variable "a") "b" true)) = .ok e' ∧
      e'.same (.member (.variable "a") "b" true) = true :=
  (reparses_iff (q := "a?.b") rfl).2
    ⟨by decide +kernel, by decide +kernel, by decide +kernel,
      ⟨by decide +kernel, by decide +kernel⟩⟩

/-- Parentheses around a null-safe chain are lost, and a null-safe step by number has no text. -/
theorem exists_not_reparses :
    (∃ e e', Expr.parse "(a?.b).c" = .ok e ∧ Expr.parse e.canonical = .ok e' ∧
      e'.same e = false) ∧
      ∃ e error, Expr.parse "a?.b.0" = .ok e ∧ Expr.parse e.canonical = .error error := by
  constructor
  · obtain ⟨e, hp, h⟩ := Parser.exists_parse_of_any "(a?.b).c"
      (fun e => (Expr.parse e.canonical).toOption.any fun e' => !e'.same e) (by decide +kernel)
    obtain ⟨e', hp', hsame⟩ := Parser.exists_parse_of_any _ _ h
    exact ⟨e, e', hp, hp', by simpa using hsame⟩
  · obtain ⟨e, hp, h⟩ := Parser.exists_parse_of_any "a?.b.0"
      (fun e => (Expr.parse e.canonical).toOption.isNone) (by decide +kernel)
    cases hcanonical : Expr.parse e.canonical with
    | error error => exact ⟨e, error, hp, hcanonical⟩
    | ok e' => rw [hcanonical] at h; exact absurd h (by simp [Except.toOption])

end Expr

end PathQuery
