/-
Which delimiters the parser blames.

* **`BlamesDelimiter`** — what an error says about a delimiter of some tokens: one that is called
  unclosed matches nothing; one that is called unbalanced matches nothing or stands where an operand
  is missing;
* **`Parser.Stands`** — a place among the tokens, with the delimiters that are open there;
* **`Parser.IsOperand`** — a production that takes balanced tokens, or blames a delimiter like that;
* **`Expr.parse_blames_delimiter`** — so does the parser as a whole.

Design notes: a production is started inside of delimiters that others have opened, so what is open
at the place at hand is a parameter.  A closing delimiter at the front of an operand may well match:
only the token before it tells that it stands there in place of an operand, and this is what
productions are told by `Awaits`.
-/
import PathQuery.Proofs.Parser.Meets
import PathQuery.Proofs.Parser.Productions
import PathQuery.Proofs.Token.Delimiters
import PathQuery.Proofs.Token.Lexed

namespace PathQuery

/-- Whether an operand has to follow a symbol: an operator, a sign, a part of a conditional, an
arrow or an opening parenthesis. -/
def Symbol.wantsOperand : Symbol → Bool
  | .dot | .nullSafeDot | .leftBracket | .rightBracket | .rightParen | .comma => false
  | _ => true

/-- Whether an operand has to follow a token. -/
def TokenKind.wantsOperand : TokenKind → Bool
  | .symbol s => s.wantsOperand
  | _ => false

/-- What an error says about a delimiter. -/
structure BlamesDelimiter (ts : List Token) (e : ParseError) : Prop where
  /-- An unclosed delimiter is an opening one that matches nothing. -/
  unclosed : ∀ d, e.fault = .unclosed d → ∃ i, ts[i]? = some ⟨.symbol d.opener, e.position⟩ ∧
    ∀ j, ¬ d.Matches ts i j
  /-- An unbalanced delimiter is a closing one that matches nothing, unless it stands directly
  behind a token that wants an operand. -/
  unbalanced : ∀ d, e.fault = .unbalanced d → ∃ j, ts[j]? = some ⟨.symbol d.closer, e.position⟩ ∧
    ((∀ i, ¬ d.Matches ts i j) ∨
      ∃ k t, j = k + 1 ∧ ts[k]? = some t ∧ t.kind.wantsOperand = true)

namespace Parser

/-! ### Places -/

/-- The place behind the tokens `before`, where the delimiters on the stack are open. -/
structure Stands (ts before stack : List Token) (s : ParserState) : Prop where
  tokens : ts = before ++ s.stream.tokens
  behind : openBehind [] before = some stack
  proper : ∀ t ∈ ts, t.kind ≠ .endOfInput

/-- A place behind at least `n` tokens. -/
def StandsBehind (ts : List Token) (n : Nat) (stack : List Token) (s : ParserState) : Prop :=
  ∃ before, n ≤ before.length ∧ Stands ts before stack s

/-- If the token at the front closes the innermost delimiter, an operand is wanted in its place. -/
def Awaits (before stack : List Token) (s : ParserState) : Prop :=
  ∀ d : Delimiter, s.stream.peek.kind = .symbol d.closer →
    (∃ o ∈ stack.head?, o.kind = .symbol d.opener) →
      ∃ t ∈ before.getLast?, t.kind.wantsOperand = true

section

variable {ts before stack stack' : List Token} {o : Token} {s : ParserState} {d : Delimiter}
  {n m : Nat}

namespace Stands

theorem linked (h : Stands ts before stack s) : Stands ts before stack s.linked :=
  ⟨h.tokens, h.behind, h.proper⟩

theorem withLinks (h : Stands ts before stack s) (links : Nat) :
    Stands ts before stack (s.withLinks links) := ⟨h.tokens, h.behind, h.proper⟩

theorem length_eq (h : Stands ts before stack s) :
    ts.length = before.length + s.stream.tokens.length := by
  rw [h.tokens, List.length_append]

/-- Only behind all tokens the one for the end is at the front. -/
theorem tokens_eq_nil (h : Stands ts before stack s) (hend : s.stream.peek.kind = .endOfInput) :
    s.stream.tokens = [] := by
  rw [TokenStream.peek] at hend
  cases htokens : s.stream.tokens with
  | nil => rfl
  | cons t rest =>
    rw [htokens] at hend
    have hmem : t ∈ ts := by rw [h.tokens, htokens]; simp
    exact absurd hend (h.proper t hmem)

theorem tokens_eq_cons (hend : s.stream.peek.kind ≠ .endOfInput) :
    s.stream.tokens = s.stream.peek :: s.advanced.stream.tokens := by
  change s.stream.tokens = s.stream.tokens.headD _ :: s.stream.tokens.tail
  rw [TokenStream.peek] at hend
  cases htokens : s.stream.tokens with
  | nil => rw [htokens] at hend; exact absurd rfl hend
  | cons t rest => rfl

/-- A token is taken. -/
theorem advance (h : Stands ts before stack s) (hend : s.stream.peek.kind ≠ .endOfInput)
    (hnest : nest stack s.stream.peek = some stack') :
    Stands ts (before ++ [s.stream.peek]) stack' s.advanced where
  tokens := by
    rw [h.tokens, List.append_assoc]
    exact congrArg (before ++ ·) (tokens_eq_cons hend)
  behind := by rw [openBehind_concat, h.behind]; exact hnest
  proper := h.proper

theorem advance_of_isPlain {k : TokenKind} (h : Stands ts before stack s)
    (hkind : s.stream.peek.kind = k) (hplain : k.IsPlain) (hend : k ≠ .endOfInput) :
    Stands ts (before ++ [s.stream.peek]) stack s.advanced :=
  h.advance (hkind ▸ hend) (nest_of_isPlain (hkind ▸ hplain) stack)

theorem advance_of_opener (h : Stands ts before stack s)
    (hd : s.stream.peek.kind = .symbol d.opener) :
    Stands ts (before ++ [s.stream.peek]) (⟨.symbol d.opener, s.stream.peek.position⟩ :: stack)
      s.advanced := by
  have hend : s.stream.peek.kind ≠ .endOfInput := by rw [hd]; exact TokenKind.noConfusion
  rw [← hd]
  exact h.advance hend (nest_of_opener hd stack)

theorem advance_of_closer (h : Stands ts before (o :: stack) s) (ho : o.kind = .symbol d.opener)
    (hd : s.stream.peek.kind = .symbol d.closer) :
    Stands ts (before ++ [s.stream.peek]) stack s.advanced :=
  h.advance (by rw [hd]; exact TokenKind.noConfusion) ((nest_of_closer hd).2 ⟨o, rfl, ho⟩)

/-- At the end the innermost delimiter is not closed. -/
theorem blames_unclosed {opened : Position}
    (h : Stands ts before (⟨.symbol d.opener, opened⟩ :: stack) s) (hnil : s.stream.tokens = []) :
    BlamesDelimiter ts ⟨.unclosed d, opened⟩ where
  unclosed d' hd := by
    obtain rfl := ParseFault.unclosed.inj hd
    have hbehind : openBehind [] before = some ([] ++ ⟨.symbol d.opener, opened⟩ :: stack) :=
      h.behind
    obtain ⟨front, inner, hbefore, -, hinner⟩ := exists_of_openBehind hbehind
    have hts : ts = front ++ ⟨.symbol d.opener, opened⟩ :: inner := by
      rw [h.tokens, hnil, List.append_nil, hbefore]
    refine ⟨front.length, ?_, fun j => ?_⟩
    · rw [hts, List.getElem?_append_right (Nat.le_refl _), Nat.sub_self]
      rfl
    · rw [hts]
      exact not_matches_of_open hinner d j
  unbalanced d' hd := nomatch hd

/-- A closing token at the front closes nothing, or an operand is missing before it. -/
theorem blames_unbalanced (h : Stands ts before stack s)
    (hd : s.stream.peek.kind = .symbol d.closer) (hawaits : Awaits before stack s) :
    BlamesDelimiter ts ⟨.unbalanced d, s.stream.peek.position⟩ where
  unclosed d' hd := nomatch hd
  unbalanced d' hd' := by
    obtain rfl := ParseFault.unbalanced.inj hd'
    have htokens := h.tokens
    rw [tokens_eq_cons (by rw [hd]; exact TokenKind.noConfusion)] at htokens
    refine ⟨before.length, ?_, ?_⟩
    · rw [htokens, List.getElem?_append_right (Nat.le_refl _), Nat.sub_self, ← hd]
      rfl
    · by_cases hopen : ∃ o ∈ stack.head?, o.kind = .symbol d.opener
      · obtain ⟨t, ht, hwants⟩ := hawaits d hd hopen
        obtain ⟨front, rfl⟩ := List.getLast?_eq_some_iff.1 ht
        refine .inr ⟨front.length, t, List.length_append, ?_, hwants⟩
        rw [htokens, List.append_assoc, List.getElem?_append_right (Nat.le_refl _), Nat.sub_self]
        rfl
      · refine .inl fun i => ?_
        rw [htokens]
        exact not_matches_of_closer h.behind (fun o ho hkind => hopen ⟨o, ho, hkind⟩) i

end Stands

theorem le_length_concat (hn : n ≤ before.length) (t : Token) : n ≤ (before ++ [t]).length := by
  rw [List.length_append]
  exact Nat.le_add_right_of_le hn

theorem Stands.standsBehind_concat {t : Token} (h : Stands ts (before ++ [t]) stack s) :
    StandsBehind ts (before.length + 1) stack s :=
  ⟨before ++ [t], by simp, h⟩

/-- A token that is neither a delimiter nor the end is taken. -/
theorem Stands.taken {k : TokenKind} (h : Stands ts before stack s)
    (hkind : s.stream.peek.kind = k) (hplain : k.IsPlain) (hend : k ≠ .endOfInput) :
    StandsBehind ts (before.length + 1) stack s.advanced :=
  (h.advance_of_isPlain hkind hplain hend).standsBehind_concat

theorem StandsBehind.mono (h : StandsBehind ts n stack s) (hle : m ≤ n) :
    StandsBehind ts m stack s := by
  obtain ⟨before, hn, h⟩ := h
  exact ⟨before, Nat.le_trans hle hn, h⟩

/-- Behind a token that wants an operand one is awaited. -/
theorem awaits_of_wantsOperand {t : Token} (ht : t.kind.wantsOperand = true) :
    Awaits (before ++ [t]) stack s := fun _ _ _ => ⟨t, by simp, ht⟩

/-- Other faults are not about delimiters. -/
theorem blamesDelimiter_of_ne {e : ParseError} (hunclosed : ∀ d, e.fault ≠ .unclosed d)
    (hunbalanced : ∀ d, e.fault ≠ .unbalanced d) : BlamesDelimiter ts e :=
  ⟨fun d hd => absurd hd (hunclosed d), fun d hd => absurd hd (hunbalanced d)⟩

theorem blamesDelimiter_tooDeep (limit : Nat) (position : Position) :
    BlamesDelimiter ts ⟨.tooDeep limit, position⟩ :=
  blamesDelimiter_of_ne (fun _ => ParseFault.noConfusion) fun _ => ParseFault.noConfusion

variable {α β : Type} {Q : α → ParserState → Prop}

theorem meets_unexpectedAt (token : Token) (expected : Expected) :
    Meets (BlamesDelimiter ts) (unexpectedAt token expected : Parser α) s Q := by
  refine .unexpectedAt fun fault hfault => ?_
  rcases hfault with rfl | rfl <;>
    exact blamesDelimiter_of_ne (fun _ => ParseFault.noConfusion) fun _ => ParseFault.noConfusion

theorem meets_unexpected (expected : Expected) :
    Meets (BlamesDelimiter ts) (unexpected expected : Parser α) s Q :=
  .bind_of_ok (runOn_peek s) (meets_unexpectedAt _ _)

/-- The required symbol is taken; it is no delimiter. -/
theorem meets_expect {symbol : Symbol} (hplain : (TokenKind.symbol symbol).IsPlain)
    (h : Stands ts before stack s) (expected : Expected) :
    Meets (BlamesDelimiter ts) (expect symbol expected) s fun _ s' =>
      ∃ t : Token, t.kind = .symbol symbol ∧ Stands ts (before ++ [t]) stack s' := by
  refine .bind_of_ok (runOn_isNext symbol s) ?_
  split
  case isTrue hnext =>
    have hkind : s.stream.peek.kind = .symbol symbol := eq_of_beq hnext
    have h' := h.advance_of_isPlain hkind hplain TokenKind.noConfusion
    exact .of_run (runOn_discard_advance s) ⟨s.stream.peek, hkind, h'⟩
  case isFalse => exact meets_unexpected expected

/-- The closing delimiter is taken. -/
theorem meets_close {opened : Position}
    (h : Stands ts before (⟨.symbol d.opener, opened⟩ :: stack) s) :
    Meets (BlamesDelimiter ts) (close d opened) s fun _ s' =>
      StandsBehind ts (before.length + 1) stack s' := by
  refine .bind_of_ok (runOn_peek s) ?_
  split
  case isTrue hkind =>
    exact .of_run (runOn_discard_advance s) (h.advance_of_closer rfl hkind).standsBehind_concat
  case isFalse =>
    split
    case isTrue hend => exact .throw (h.blames_unclosed (h.tokens_eq_nil hend))
    case isFalse => exact meets_unexpected _

/-! ### Loops -/

/-- A production that takes some balanced tokens where an operand is awaited, or blames a
delimiter. -/
def IsOperand (ts : List Token) (p : Parser α) : Prop :=
  ∀ (before stack : List Token) (s : ParserState), Stands ts before stack s →
    Awaits before stack s → Meets (BlamesDelimiter ts) p s fun _ s' =>
      StandsBehind ts (before.length + 1) stack s'

/-- An operand behind one more token, which wants it. -/
theorem IsOperand.behind {p : Parser α} (hp : IsOperand ts p) {t : Token}
    (h : Stands ts (before ++ [t]) stack s) (ht : t.kind.wantsOperand = true) :
    Meets (BlamesDelimiter ts) p s fun _ s' => StandsBehind ts (before.length + 1) stack s' := by
  refine (hp _ _ _ h (awaits_of_wantsOperand ht)).mono fun _ s' h' => h'.mono ?_
  exact Nat.succ_le_succ (le_length_concat (Nat.le_refl _) t)

theorem meets_chainRest {operator : TokenKind → Option (Expr → Expr → Expr)}
    {operand : Parser Expr}
    (hoperator : ∀ k join, operator k = some join → k.IsPlain ∧ k.wantsOperand = true)
    (hoperand : IsOperand ts operand) (limit : Nat) : ∀ (left : Expr) {n : Nat}
      {s : ParserState}, StandsBehind ts n stack s →
        Meets (BlamesDelimiter ts) (chainRest operator operand limit left) s fun _ s' =>
          StandsBehind ts n stack s' := by
  induction limit with
  | zero => exact fun left n s h => .pure h
  | succ limit ih =>
    intro left n s h
    obtain ⟨before, hn, hstands⟩ := h
    rw [chainRest]
    refine .bind_of_ok (runOn_peek s) ?_
    split
    case h_1 => exact .pure ⟨before, hn, hstands⟩
    case h_2 join hjoin =>
      obtain ⟨hplain, hwants⟩ := hoperator _ _ hjoin
      have hend : s.stream.peek.kind ≠ .endOfInput := by
        intro hend
        rw [hend] at hwants
        exact Bool.false_ne_true hwants
      refine .bind (.link (blamesDelimiter_tooDeep _ _) ?_)
      refine .bind_of_ok (runOn_discard_advance _) (.bind ?_)
      refine (hoperand.behind (hstands.linked.advance_of_isPlain rfl hplain hend) hwants).mono ?_
      intro right s' h'
      exact ih _ (h'.mono (Nat.le_succ_of_le hn))

theorem IsOperand.chain {operator : TokenKind → Option (Expr → Expr → Expr)}
    {operand : Parser Expr}
    (hoperator : ∀ k join, operator k = some join → k.IsPlain ∧ k.wantsOperand = true)
    (hoperand : IsOperand ts operand) : IsOperand ts (chain operator operand) := by
  intro before stack s h hawaits
  refine .restoring ((hoperand _ _ _ h hawaits).mono fun first s' h' => ?_)
  refine (meets_chainRest hoperator hoperand _ first h').mono fun result s'' h'' links => ?_
  obtain ⟨before', hlt, h''⟩ := h''
  exact ⟨before', hlt, h''.withLinks links⟩

/-- Each item takes a token, so the limit is not met before the end. -/
theorem meets_items {expression : Parser Expr} (hexpression : IsOperand ts expression)
    {opened : Position} (limit : Nat) : ∀ {before : List Token} {s : ParserState},
      Stands ts before (⟨.symbol d.opener, opened⟩ :: stack) s →
        s.stream.tokens.length ≤ limit →
          Meets (BlamesDelimiter ts) (items expression d opened limit) s fun _ s' =>
            StandsBehind ts before.length stack s' := by
  induction limit with
  | zero =>
    intro before s h hlimit
    exact .throw (h.blames_unclosed (List.length_eq_zero_iff.1 (Nat.le_zero.1 hlimit)))
  | succ limit ih =>
    intro before s h hlimit
    rw [items]
    refine .bind_of_ok (runOn_peek s) ?_
    split
    case isTrue hkind =>
      have hbehind := (h.advance_of_closer rfl hkind).standsBehind_concat
      exact .bind_of_ok (runOn_discard_advance s) (.pure (hbehind.mono (Nat.le_succ _)))
    case isFalse hcloser =>
      split
      case isTrue hend => exact .throw (h.blames_unclosed (h.tokens_eq_nil hend))
      case isFalse hend =>
        -- What closes another kind than the list closes nothing.
        have hawaits : Awaits before (⟨.symbol d.opener, opened⟩ :: stack) s := by
          rintro d' hd' ⟨o, ho, hopener⟩
          obtain rfl := Option.some.inj ho
          have hsame : d = d' := Delimiter.opener_injective (TokenKind.symbol.inj hopener)
          exact absurd (hsame ▸ hd') hcloser
        refine .bind ((hexpression _ _ _ h hawaits).mono fun first s' h' => ?_)
        obtain ⟨before', hlt, h'⟩ := h'
        have hlength := h.length_eq
        have hlength' := h'.length_eq
        refine .bind_of_ok (runOn_peek s') ?_
        split
        case isTrue hcomma =>
          have h'' := h'.advance_of_isPlain hcomma ⟨rfl, rfl⟩ TokenKind.noConfusion
          have hlength'' := h''.length_eq
          rw [List.length_append, List.length_singleton] at hlength''
          refine .bind_of_ok (runOn_discard_advance s') (.bind ((ih h'' (by omega)).mono ?_))
          exact fun rest s₃ h₃ => .pure (h₃.mono (le_length_concat (by omega) _))
        case isFalse =>
          split
          case isTrue =>
            refine .bind ((ih h' (by omega)).mono ?_)
            exact fun rest s₃ h₃ => .pure (h₃.mono (by omega))
          case isFalse =>
            split
            case isTrue hend' =>
              exact .bind (.throw (h'.blames_unclosed (h'.tokens_eq_nil hend')))
            case isFalse => exact .bind (meets_unexpected _)

/-- Parameters are no delimiters. -/
theorem meets_parameters (limit : Nat) : ∀ {n : Nat} {s : ParserState},
    StandsBehind ts n stack s →
      Meets (BlamesDelimiter ts) (parameters limit) s fun _ s' => StandsBehind ts n stack s' := by
  induction limit with
  | zero => exact fun _ => meets_unexpected _
  | succ limit ih =>
    rintro n s ⟨before, hn, h⟩
    rw [parameters]
    refine .bind_of_ok (runOn_isNext _ s) ?_
    split
    · exact .pure ⟨before, hn, h⟩
    · refine .bind_of_ok (runOn_peek s) ?_
      split
      case h_1 name hname =>
        have h' := h.advance_of_isPlain hname ⟨rfl, rfl⟩ TokenKind.noConfusion
        have hn' := le_length_concat hn s.stream.peek
        have hrest {s : ParserState} (h : StandsBehind ts n stack s) :
            Meets (BlamesDelimiter ts) (do
              let rest ← parameters limit
              return name :: rest) s fun _ s' => StandsBehind ts n stack s' :=
          .bind ((ih h).mono fun _ _ h => .pure h)
        refine .bind_of_ok (runOn_discard_advance s) (.bind_of_ok (runOn_isNext _ _) ?_)
        split
        · refine .bind ((meets_expect ⟨rfl, rfl⟩ h' _).mono ?_)
          rintro _ s'' ⟨t, -, h''⟩
          exact hrest ⟨_, le_length_concat hn' t, h''⟩
        · exact hrest ⟨_, hn', h'⟩
      case h_2 => exact meets_unexpected _

/-! ### Productions -/

variable {nested : Nested} {opened : Position}

theorem meets_list (hexpression : IsOperand ts nested.expression)
    (h : Stands ts before (⟨.symbol d.opener, opened⟩ :: stack) s) :
    Meets (BlamesDelimiter ts) (list nested d opened) s fun _ s' =>
      StandsBehind ts before.length stack s' := by
  refine .bind_of_ok (runOn_remaining s) (meets_items hexpression _ h ?_)
  exact Nat.le_of_eq (List.length_map _).symm

theorem meets_closure (hexpression : IsOperand ts nested.expression)
    (h : StandsBehind ts n (⟨.symbol Delimiter.parenthesis.opener, opened⟩ :: stack) s) :
    Meets (BlamesDelimiter ts) (closure nested opened) s fun _ s' =>
      StandsBehind ts n stack s' := by
  refine .bind_of_ok (runOn_remaining s) (.bind ((meets_parameters _ h).mono ?_))
  rintro params s₁ ⟨before₁, hn₁, h₁⟩
  refine .bind ((meets_close h₁).mono ?_)
  rintro _ s₂ ⟨before₂, hn₂, h₂⟩
  refine .bind ((meets_expect ⟨rfl, rfl⟩ h₂ _).mono ?_)
  rintro _ s₃ ⟨t, ht, h₃⟩
  have hwants : t.kind.wantsOperand = true := by rw [ht]; rfl
  refine .bind ((hexpression.behind h₃ hwants).mono fun body s₄ h₄ => .pure (h₄.mono ?_))
  omega

theorem IsOperand.primary (hexpression : IsOperand ts nested.expression) :
    IsOperand ts (primary nested) := by
  intro before stack s h hawaits
  refine .bind_of_ok (runOn_advance s) ?_
  cases hkind : s.stream.peek.kind with
  | identifier name =>
    have hname := h.taken hkind ⟨rfl, rfl⟩ TokenKind.noConfusion
    refine .bind_of_ok (runOn_isNext _ _) ?_
    split
    case isTrue => exact .pure hname
    case isFalse hnext =>
      obtain ⟨before', hlt, h'⟩ := hname
      have hparen : s.advanced.stream.peek.kind = .symbol .leftParen := by simpa using hnext
      have h'' := h'.advance_of_opener (d := .parenthesis) hparen
      have hlt' := le_length_concat hlt s.advanced.stream.peek
      refine .bind_of_ok (runOn_advance _) (.bind_of_ok (runOn_get _) ?_)
      split
      · exact meets_closure hexpression ⟨_, hlt', h''⟩
      · exact .bind ((meets_list hexpression h'').mono fun args s₃ h₃ => .pure (h₃.mono hlt'))
  | symbol symbol =>
    cases symbol with
    | leftParen =>
      have h' := h.advance_of_opener (d := .parenthesis) hkind
      refine .bind_of_ok (runOn_get _) ?_
      split
      · exact meets_closure hexpression h'.standsBehind_concat
      · -- An operand is awaited right behind the parenthesis.
        have hwants : s.stream.peek.kind.wantsOperand = true := by rw [hkind]; rfl
        refine .bind ((hexpression.behind h' hwants).mono ?_)
        rintro inner s₂ ⟨before₂, hlt, h₂⟩
        exact .bind ((meets_close h₂).mono fun _ s₃ h₃ => .pure (h₃.mono (by omega)))
    | leftBracket =>
      have h' := h.advance_of_opener (d := .bracket) hkind
      refine .bind ((meets_list hexpression h').mono fun elements s₂ h₂ => .pure (h₂.mono ?_))
      rw [List.length_append]
      exact Nat.le_refl _
    | rightParen => exact .throw (h.blames_unbalanced (d := .parenthesis) hkind hawaits)
    | rightBracket => exact .throw (h.blames_unbalanced (d := .bracket) hkind hawaits)
    -- No other symbol starts a primary expression.
    | _ => exact meets_unexpectedAt _ _
  | endOfInput => exact meets_unexpectedAt _ _
  | _ => exact .pure (h.taken hkind ⟨rfl, rfl⟩ TokenKind.noConfusion)

theorem meets_memberName (h : StandsBehind ts n stack s) :
    Meets (BlamesDelimiter ts) memberName s fun _ s' => StandsBehind ts n stack s' := by
  obtain ⟨before, hn, h⟩ := h
  refine .bind_of_ok (runOn_peek s) ?_
  split
  case h_1 name hname =>
    have h' := h.taken hname ⟨rfl, rfl⟩ TokenKind.noConfusion
    exact .bind_of_ok (runOn_discard_advance s) (.pure (h'.mono (Nat.le_succ_of_le hn)))
  case h_2 i hi =>
    have h' := h.taken hi ⟨rfl, rfl⟩ TokenKind.noConfusion
    split
    · exact .bind (meets_unexpected _)
    · exact .bind_of_ok (runOn_discard_advance s) (.pure (h'.mono (Nat.le_succ_of_le hn)))
  case h_3 => exact meets_unexpected _

theorem meets_members (hexpression : IsOperand ts nested.expression) (limit : Nat) :
    ∀ (object : Expr) (nullSafe : Bool) {n : Nat} {s : ParserState}, StandsBehind ts n stack s →
      Meets (BlamesDelimiter ts) (members nested limit object nullSafe) s fun _ s' =>
        StandsBehind ts n stack s' := by
  induction limit with
  | zero => exact fun object nullSafe n s h => .pure h
  | succ limit ih =>
    intro object nullSafe n s h
    obtain ⟨before, hn, hstands⟩ := h
    rw [members]
    refine .bind_of_ok (runOn_peek s) ?_
    dsimp only
    split
    case isTrue => exact .pure ⟨before, hn, hstands⟩
    case isFalse hdot =>
      obtain ⟨hplain, hend⟩ := TokenKind.isPlain_of_isDot (by simpa using hdot)
      refine .bind (.link (blamesDelimiter_tooDeep _ _) ?_)
      refine .bind_of_ok (runOn_discard_advance _) (.bind ?_)
      have hname : StandsBehind ts n stack s.linked.advanced :=
        (hstands.linked.taken rfl hplain hend).mono (Nat.le_succ_of_le hn)
      refine (meets_memberName hname).mono fun name s₁ h₁ => ?_
      refine .bind_of_ok (runOn_isNext _ _) ?_
      split
      case isTrue hnext =>
        obtain ⟨before₁, hn₁, h₁⟩ := h₁
        have hd : s₁.stream.peek.kind = .symbol Delimiter.parenthesis.opener := eq_of_beq hnext
        have h₂ := h₁.advance_of_opener hd
        refine .bind_of_ok (runOn_advance _) (.bind ?_)
        refine (meets_list hexpression h₂).mono fun args s₃ h₃ => ih _ _ (h₃.mono ?_)
        exact le_length_concat hn₁ _
      case isFalse => exact ih _ _ h₁

theorem IsOperand.path (hexpression : IsOperand ts nested.expression) :
    IsOperand ts (path nested) := by
  intro before stack s h hawaits
  refine .restoring ((IsOperand.primary hexpression _ _ _ h hawaits).mono fun object s₁ h₁ => ?_)
  refine (meets_members hexpression _ object false h₁).mono fun result s₂ h₂ links => ?_
  obtain ⟨before₂, hlt, h₂⟩ := h₂
  exact ⟨before₂, hlt, h₂.withLinks links⟩

theorem IsOperand.unary (hexpression : IsOperand ts nested.expression)
    (hunary : IsOperand ts nested.unary) : IsOperand ts (unary nested) := by
  intro before stack s h hawaits
  refine .bind_of_ok (runOn_isNext _ s) ?_
  split
  case isTrue hnext =>
    have hminus : s.stream.peek.kind = .symbol .minus := eq_of_beq hnext
    have h' := h.advance_of_isPlain hminus ⟨rfl, rfl⟩ TokenKind.noConfusion
    refine .bind_of_ok (runOn_discard_advance s) (.bind ?_)
    exact (hunary.behind h' (by rw [hminus]; rfl)).mono fun operand s₁ h₁ => .pure h₁
  case isFalse => exact IsOperand.path hexpression _ _ _ h hawaits

/-- The operators of all levels are followed by operands. -/
theorem wantsOperand_of_operator {level : Level} {k : TokenKind} {join : Expr → Expr → Expr}
    (h : level.operator k = some join) : k.IsPlain ∧ k.wantsOperand = true := by
  obtain ⟨op, -, rfl, -⟩ := Level.operator_eq_some h
  cases op with
  | coalesce => exact ⟨⟨rfl, rfl⟩, rfl⟩
  | logical op => cases op <;> exact ⟨⟨rfl, rfl⟩, rfl⟩
  | comparison op => cases op <;> exact ⟨⟨rfl, rfl⟩, rfl⟩
  | arithmetic op => cases op <;> exact ⟨⟨rfl, rfl⟩, rfl⟩

/-- All binary levels are chains over the level below. -/
theorem IsOperand.binary (level : Level) (h : IsOperand ts (production nested level.operand)) :
    IsOperand ts (production nested (.binary level)) := by
  rw [production_binary]
  exact IsOperand.chain (fun _ _ => wantsOperand_of_operator) h

/-- From the tightest level to the loosest one. -/
theorem IsOperand.coalesce (h : IsOperand ts (Parser.unary nested)) :
    IsOperand ts (coalesce nested) := by
  have hmultiplicative := IsOperand.binary .multiplicative h
  have hadditive := IsOperand.binary .additive hmultiplicative
  have hcomparison := IsOperand.binary .comparison hadditive
  have hconjunction := IsOperand.binary .conjunction hcomparison
  have hdisjunction := IsOperand.binary .disjunction hconjunction
  exact IsOperand.binary .coalesce hdisjunction

theorem IsOperand.conditional (hexpression : IsOperand ts nested.expression)
    (hcoalesce : IsOperand ts (Parser.coalesce nested)) : IsOperand ts (conditional nested) := by
  intro before stack s h hawaits
  refine .bind ((hcoalesce _ _ _ h hawaits).mono fun condition s₁ h₁ => ?_)
  refine .bind_of_ok (runOn_isNext _ s₁) ?_
  split
  case isTrue => exact .pure h₁
  case isFalse hnext =>
    obtain ⟨before₁, hn₁, h₁⟩ := h₁
    have hquestion : s₁.stream.peek.kind = .symbol .question := by simpa using hnext
    have h₂ := h₁.advance_of_isPlain hquestion ⟨rfl, rfl⟩ TokenKind.noConfusion
    have hn₂ := le_length_concat hn₁ s₁.stream.peek
    refine .bind_of_ok (runOn_discard_advance s₁) (.bind_of_ok (runOn_isNext _ _) ?_)
    split
    case isTrue hnext =>
      have hcolon : s₁.advanced.stream.peek.kind = .symbol .colon := eq_of_beq hnext
      have h₃ := h₂.advance_of_isPlain hcolon ⟨rfl, rfl⟩ TokenKind.noConfusion
      refine .bind_of_ok (runOn_discard_advance _) (.bind ?_)
      refine (hexpression.behind h₃ (by rw [hcolon]; rfl)).mono fun otherwise s₄ h₄ => ?_
      exact .pure (h₄.mono (Nat.le_succ_of_le hn₂))
    case isFalse =>
      refine .bind ((hexpression.behind h₂ (by rw [hquestion]; rfl)).mono ?_)
      rintro whenTrue s₃ ⟨before₃, hn₃, h₃⟩
      refine .bind ((meets_expect ⟨rfl, rfl⟩ h₃ _).mono ?_)
      rintro _ s₄ ⟨t, ht, h₄⟩
      refine .bind ((hexpression.behind h₄ (by rw [ht]; rfl)).mono fun otherwise s₅ h₅ => ?_)
      exact .pure (h₅.mono (by omega))

/-! ### Nesting -/

theorem isOperand_tooDeep : IsOperand ts (tooDeep : Parser Expr) := by
  intro before stack s _ _
  exact .bind_of_ok (runOn_peek s) (.throw (blamesDelimiter_tooDeep _ _))

/-- By induction on the levels left. -/
theorem isOperand_nestedAt (ts : List Token) (levels : Nat) :
    IsOperand ts (nestedAt levels).expression ∧ IsOperand ts (nestedAt levels).unary := by
  induction levels with
  | zero => exact ⟨isOperand_tooDeep, isOperand_tooDeep⟩
  | succ levels ih =>
    have hunary := IsOperand.unary ih.1 ih.2
    exact ⟨IsOperand.conditional ih.1 (IsOperand.coalesce hunary), hunary⟩

/-- At the top nothing is open, so a closing delimiter there closes nothing. -/
theorem meets_query (hproper : ∀ t ∈ s.stream.tokens, t.kind ≠ .endOfInput) :
    Meets (BlamesDelimiter s.stream.tokens) query s fun _ _ => True := by
  have hstart : Stands s.stream.tokens [] [] s := ⟨rfl, rfl, hproper⟩
  have hnothing {before : List Token} {s : ParserState} : Awaits before [] s :=
    fun d _ ⟨o, ho, _⟩ => nomatch ho
  refine .bind (((isOperand_nestedAt _ maxNesting).1 _ _ _ hstart hnothing).mono ?_)
  rintro result s₁ ⟨before, -, h⟩
  refine .bind_of_ok (runOn_peek s₁) ?_
  split
  case h_1 => exact .pure trivial
  case h_2 hkind => exact .throw (h.blames_unbalanced (d := .parenthesis) hkind hnothing)
  case h_3 hkind => exact .throw (h.blames_unbalanced (d := .bracket) hkind hnothing)
  case h_4 => exact meets_unexpected _

end

end Parser

/-! ### Texts -/

/-- An error that calls a delimiter unclosed stands at an opening one that matches nothing; one that
calls a delimiter unbalanced stands at a closing one that matches nothing, or stands directly behind
a token that wants an operand. -/
theorem Expr.parse_blames_delimiter {q : String} {e : ParseError} (h : Expr.parse q = .error e)
    (d : Delimiter) :
    (e.fault = .unclosed d → ∃ stream i, tokenize q = .ok stream ∧
      stream.tokens[i]? = some ⟨.symbol d.opener, e.position⟩ ∧
        ∀ j, ¬ d.Matches stream.tokens i j) ∧
    (e.fault = .unbalanced d → ∃ stream j, tokenize q = .ok stream ∧
      stream.tokens[j]? = some ⟨.symbol d.closer, e.position⟩ ∧
        ((∀ i, ¬ d.Matches stream.tokens i j) ∨
          ∃ k t, j = k + 1 ∧ stream.tokens[k]? = some t ∧ t.kind.wantsOperand = true)) := by
  rw [Expr.parse, Parser.start] at h
  cases ht : tokenize q with
  | error e' =>
    -- What is wrong with the text itself is not about delimiters.
    rw [ht] at h
    obtain rfl := Except.error.inj h
    exact ⟨fun hd => ParseFault.noConfusion hd, fun hd => ParseFault.noConfusion hd⟩
  | ok stream =>
    rw [ht] at h
    have hproper : ∀ t ∈ stream.tokens, t.kind ≠ .endOfInput := fun t hmem hend =>
      endOfInput_not_mem ht (hend ▸ List.mem_map_of_mem hmem)
    have hblames : BlamesDelimiter stream.tokens e :=
      (Parser.meets_query (s := ⟨stream, 0⟩) hproper).of_error h
    refine ⟨fun hd => ?_, fun hd => ?_⟩
    · obtain ⟨i, hi⟩ := hblames.unclosed d hd
      exact ⟨stream, i, rfl, hi⟩
    · obtain ⟨j, hj⟩ := hblames.unbalanced d hd
      exact ⟨stream, j, rfl, hj⟩

/-- A list in a group, where the group is not closed and the list is. -/
theorem Expr.parse_blames_delimiter_of_group :
    Expr.parse "([1]" = .error ⟨.unclosed .parenthesis, ⟨0, 1, 1⟩⟩ ∧
      ∃ stream i, tokenize "([1]" = .ok stream ∧
        stream.tokens[i]? = some ⟨.symbol .leftParen, ⟨0, 1, 1⟩⟩ ∧
          ∀ j, ¬ Delimiter.parenthesis.Matches stream.tokens i j := by
  have h : Expr.parse "([1]" = .error ⟨.unclosed .parenthesis, ⟨0, 1, 1⟩⟩ := rfl
  exact ⟨h, (Expr.parse_blames_delimiter h .parenthesis).1 rfl⟩

/-- The parenthesis that closes an empty group is called unbalanced, and it matches. -/
theorem Expr.exists_balanced_unbalanced :
    Expr.parse "()" = .error ⟨.unbalanced .parenthesis, ⟨1, 1, 2⟩⟩ ∧
      tokenize "()" = .ok ⟨[⟨.symbol .leftParen, ⟨0, 1, 1⟩⟩, ⟨.symbol .rightParen, ⟨1, 1, 2⟩⟩],
        ⟨2, 1, 3⟩⟩ ∧
      Delimiter.parenthesis.Matches
        [⟨.symbol .leftParen, ⟨0, 1, 1⟩⟩, ⟨.symbol .rightParen, ⟨1, 1, 2⟩⟩] 0 1 :=
  ⟨rfl, rfl, by decide, rfl, rfl, rfl⟩

end PathQuery
