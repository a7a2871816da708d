/-
Minus signs and parentheses around one token.

* **`Signs.text`** — a text with signs in front of it and parentheses around it;
* **`Signs.lexes`** — its tokens are those of the signs around the one of the text;
* **`Signs.derivation`** — how it is derived;
* **`Signs.parse`** — what it is parsed as: the tree of the text, negated once for every minus sign,
  or nothing if the signs are nested too deep.
-/
import Mathlib.Logic.Function.Iterate
import PathQuery.Proofs.Expr.Derivation
import PathQuery.Proofs.Parser.Query
import PathQuery.Proofs.Token.Inserted

namespace PathQuery

open Text

/-- What stands around a text. -/
inductive Sign where
  | minus
  | parentheses
deriving DecidableEq, Repr

/-- Signs from the outermost one on. -/
abbrev Signs := List Sign

namespace Signs

/-- The number of minus signs. -/
def minuses : Signs → Nat
  | [] => 0
  | .minus :: signs => minuses signs + 1
  | .parentheses :: signs => minuses signs

/-- Characters with the signs around them. -/
def wrap : Signs → List Char → List Char
  | [], cs => cs
  | .minus :: signs, cs => '-' :: wrap signs cs
  | .parentheses :: signs, cs => '(' :: (wrap signs cs ++ [')'])

/-- A text with the signs around it. -/
def text (signs : Signs) (core : String) : String := String.ofList (signs.wrap core.toList)

/-- A token with the signs around it. -/
def tokens : Signs → TokenKind → List TokenKind
  | [], kind => [kind]
  | .minus :: signs, kind => .symbol .minus :: tokens signs kind
  | .parentheses :: signs, kind => .symbol .leftParen :: (tokens signs kind ++ [.symbol .rightParen])

/-! ### The tokens -/

variable {core : String} {stream : TokenStream} {kind : TokenKind} {rest : List Char}
  {ks : List TokenKind}

theorem isOver_nil : IsOver [] := ⟨fun c hc => by simp at hc, by simp⟩

theorem isOver_rightParen (rest : List Char) : IsOver (')' :: rest) where
  stopsAt := .cons (by decide) rest
  head?_ne c hc hhead := by
    obtain rfl : ')' = c := Option.some_inj.1 hhead
    exact absurd hc (by decide)

theorem isOver_append {gap : List Char} (hgap : IsGap gap) (h : IsOver rest) :
    IsOver (gap ++ rest) := by
  cases gap with
  | nil => exact h
  | cons c gap => exact (isApart_append hgap (List.cons_ne_nil c gap) rest).isOver

/-- A text of one token is read as that token, with nothing or a closing parenthesis behind it. -/
theorem lexes_core (h : tokenize core = .ok stream) (hk : stream.kinds = [kind])
    (hdot : kind.isDot = false) (hover : IsOver rest) (hrest : Lexes false rest ks) :
    Lexes false (core.toList ++ rest) (kind :: ks) := by
  have hreads := reads_of_tokenize h
  obtain ⟨token, htoken⟩ : ∃ token, stream.tokens = [token] := List.length_eq_one_iff.1 (by
    rw [← List.length_map Token.kind, show stream.tokens.map Token.kind = [kind] from hk]
    rfl)
  obtain rfl : token.kind = kind := by
    have hmap : stream.tokens.map Token.kind = [kind] := hk
    rw [htoken] at hmap
    exact List.singleton_inj.1 hmap
  rw [htoken] at hreads
  generalize core.toList = cs, Position.start = position, stream.stop = stop at hreads
  cases hreads with
  | @cons _ _ _ gap spelling behind _ _ hgap hs hr =>
    cases hr with
    | @nil _ _ gap' hgap' =>
      rw [List.append_assoc, List.append_assoc]
      have hscans := (hs.over (isOver_append hgap' hover)).scans
      refine Lexes.blanks hgap (.cons hscans (Lexes.blanks hgap' ?_))
      rw [hdot]
      exact hrest

/-- The signs are read around that token. -/
theorem lexes_wrap (h : tokenize core = .ok stream) (hk : stream.kinds = [kind])
    (hdot : kind.isDot = false) (signs : Signs) (hover : IsOver rest) (hrest : Lexes false rest ks) :
    Lexes false (signs.wrap core.toList ++ rest) (signs.tokens kind ++ ks) := by
  induction signs generalizing rest ks with
  | nil => exact lexes_core h hk hdot hover hrest
  | cons sign signs ih =>
    cases sign with
    | minus => exact .minus (ih hover hrest)
    | parentheses =>
      have hinner := ih (isOver_rightParen rest) (.rightParen hrest)
      simp only [wrap, tokens, List.cons_append, List.append_assoc, List.nil_append]
      exact .leftParen hinner

theorem tokenize_text (h : tokenize core = .ok stream) (hk : stream.kinds = [kind])
    (hdot : kind.isDot = false) (signs : Signs) :
    ∃ stream', tokenize (signs.text core) = .ok stream' ∧
      stream'.kinds = signs.tokens kind := by
  have hlexes := lexes_wrap h hk hdot signs isOver_nil (.nil false)
  rw [List.append_nil, List.append_nil, ← String.toList_ofList (l := signs.wrap _)] at hlexes
  exact hlexes.tokenize

/-! ### The derivation -/

/-- How a primary expression with signs around it is derived. -/
def derivation : Signs → Derivation .primary → Derivation .unary
  | [], p => .ofPrimary p
  | .minus :: signs, p => .minus (derivation signs p)
  | .parentheses :: signs, p => .ofPrimary (.group (derivation signs p).ofUnary)

variable {p : Derivation .primary}

theorem tokens_derivation (hp : p.tokens = [kind]) (signs : Signs) :
    (derivation signs p).tokens = tokens signs kind := by
  induction signs with
  | nil => exact hp
  | cons sign signs ih =>
    cases sign with
    | minus => exact congrArg (TokenKind.symbol .minus :: ·) ih
    | parentheses =>
      show TokenKind.symbol .leftParen :: ((derivation signs p).ofUnary.tokens ++ _) = _
      rw [Derivation.tokens_ofUnary, ih]
      rfl

/-- Every minus sign negates, and parentheses leave the tree as it is. -/
theorem tree_derivation (p : Derivation .primary) (signs : Signs) :
    (derivation signs p).tree = Expr.negated^[minuses signs] p.tree := by
  induction signs with
  | nil => rfl
  | cons sign signs ih =>
    cases sign with
    | minus =>
      rw [minuses, Function.iterate_succ_apply', ← ih]
      rfl
    | parentheses =>
      show (derivation signs p).ofUnary.tree = _
      rw [minuses, Derivation.tree_ofUnary, ih]

theorem isGreedy_derivation (hp : p.IsGreedy) (signs : Signs) : (derivation signs p).IsGreedy := by
  induction signs with
  | nil => exact hp
  | cons sign signs ih =>
    cases sign with
    | minus => exact ih
    | parentheses => exact (Derivation.isGreedy_ofUnary _).2 ih

/-- Every sign is one more level of nesting. -/
theorem nesting_derivation (p : Derivation .primary) (signs : Signs) :
    (derivation signs p).nesting = p.nesting + signs.length := by
  induction signs with
  | nil => rfl
  | cons sign signs ih => cases sign <;> exact congrArg (· + 1) ih

theorem links_derivation (p : Derivation .primary) (signs : Signs) :
    (derivation signs p).links = p.links := by
  induction signs with
  | nil => rfl
  | cons sign signs ih => cases sign <;> exact ih

/-! ### The tree -/

/-- What is derived as a single token is a literal or a name. -/
theorem leaf_of_tokens (hp : p.tokens = [kind]) :
    kind.isDot = false ∧ p.IsGreedy ∧ p.nesting = 0 ∧ p.links = 0 := by
  cases p with
  | literal v =>
    obtain rfl := List.singleton_inj.1 hp
    refine ⟨?_, trivial, rfl, rfl⟩
    cases v with
    | number n => cases n <;> rfl
    | _ => rfl
  | name name =>
    obtain rfl := List.singleton_inj.1 hp
    exact ⟨rfl, trivial, rfl, rfl⟩
  | closure keyword params trailing body => cases keyword <;> simp [closureHead] at hp
  | _ => simp at hp

/-- A text of one token with signs around it is parsed if the signs are not nested too deep. -/
theorem parse_text_eq_ok_iff (h : tokenize core = .ok stream) (hk : stream.kinds = p.tokens)
    (hp : p.tokens = [kind]) (signs : Signs) {e : Expr} :
    Expr.parse (text signs core) = .ok e ↔
      signs.length < maxNesting ∧ e = Expr.negated^[minuses signs] p.tree := by
  obtain ⟨hdot, hgreedy, hnesting, hlinks⟩ := leaf_of_tokens hp
  obtain ⟨stream', hstream', hkinds⟩ := tokenize_text h (hk.trans hp) hdot signs
  have hlevels : (derivation signs p).ofUnary.nesting = signs.length := by
    show (derivation signs p).nesting = _
    rw [nesting_derivation, hnesting, Nat.zero_add]
  have hchain : (derivation signs p).ofUnary.links = 0 := (links_derivation p signs).trans hlinks
  have htree : (derivation signs p).ofUnary.tree = Expr.negated^[minuses signs] p.tree := by
    rw [Derivation.tree_ofUnary, tree_derivation]
  have houtcome : Parser.Outcome (derivation signs p).ofUnary (Expr.parse (text signs core)) := by
    refine Parser.parse_of_greedy hstream' ?_ ?_
    · exact (Derivation.isGreedy_ofUnary _).2 (isGreedy_derivation hgreedy signs)
    · rw [Derivation.tokens_ofUnary, tokens_derivation hp, hkinds]
  constructor
  · intro hparse
    rw [hparse] at houtcome
    cases houtcome with
    | tree within => exact ⟨hlevels ▸ within.nesting, htree⟩
  · rintro ⟨hlength, rfl⟩
    rw [← htree]
    exact houtcome.eq_ok ⟨hlevels.symm ▸ hlength, hchain.symm ▸ Nat.zero_le maxChain⟩

end Signs

end PathQuery
