/-
Delimiters that match.

* **`openBehind`** — the opening tokens that are still open behind some tokens, the innermost first;
* **`Balanced`** — tokens that close all that they open, and nothing else;
* **`Delimiter.Matches`** — an opening and a closing token with balanced tokens between them;
* **`not_matches_of_open`** — a token that is open at the end matches nothing;
* **`not_matches_of_closer`** — neither does a closing token where another kind is open, or none.

Design notes: what is open is a stack, and reading tokens on top of a larger stack does not touch
what is below (`openBehind_append_stack`).  So what is between a token on the stack and the place at
hand is balanced but for the tokens above it on the stack.
-/
import Mathlib.Data.List.Induction
import PathQuery.Expr.Parse

namespace PathQuery

/-! ### Opening and closing tokens -/

theorem Delimiter.opener_injective {d d' : Delimiter} (h : d.opener = d'.opener) : d = d' := by
  cases d <;> cases d' <;> first | rfl | cases h

namespace TokenKind

/-- The pair of delimiters that a token opens. -/
def opens? : TokenKind → Option Delimiter
  | .symbol .leftParen => some .parenthesis
  | .symbol .leftBracket => some .bracket
  | _ => none

/-- The pair of delimiters that a token closes. -/
def closes? : TokenKind → Option Delimiter
  | .symbol .rightParen => some .parenthesis
  | .symbol .rightBracket => some .bracket
  | _ => none

theorem opens?_eq_some_iff {k : TokenKind} {d : Delimiter} :
    k.opens? = some d ↔ k = .symbol d.opener := by
  constructor
  · unfold opens?
    split <;> rintro ⟨⟩ <;> rfl
  · rintro rfl
    cases d <;> rfl

theorem closes?_eq_some_iff {k : TokenKind} {d : Delimiter} :
    k.closes? = some d ↔ k = .symbol d.closer := by
  constructor
  · unfold closes?
    split <;> rintro ⟨⟩ <;> rfl
  · rintro rfl
    cases d <;> rfl

theorem opens?_closer (d : Delimiter) : (TokenKind.symbol d.closer).opens? = none := by
  cases d <;> rfl

/-- Whether a token is no delimiter. -/
def IsPlain (k : TokenKind) : Prop := k.opens? = none ∧ k.closes? = none

theorem isPlain_of_isDot {k : TokenKind} (h : k.isDot = true) : k.IsPlain ∧ k ≠ .endOfInput := by
  unfold isDot at h
  split at h
  · exact ⟨⟨rfl, rfl⟩, TokenKind.noConfusion⟩
  · exact ⟨⟨rfl, rfl⟩, TokenKind.noConfusion⟩
  · cases h

end TokenKind

/-! ### What is open -/

/-- What is open behind one more token; none if it closes what is not open. -/
def nest (stack : List Token) (t : Token) : Option (List Token) :=
  match t.kind.opens?, t.kind.closes? with
  | some _, _ => some (t :: stack)
  | none, some d => if stack.head?.bind (·.kind.opens?) = some d then some stack.tail else none
  | none, none => some stack

/-- What is open behind some tokens, the innermost delimiter first; none if one of them closes what
is not open. -/
def openBehind (stack : List Token) (ts : List Token) : Option (List Token) := ts.foldlM nest stack

section

variable {stack outer rest above : List Token} {t o c : Token} {d : Delimiter}
  {ts us before inner behind : List Token}

theorem nest_of_opener (h : t.kind = .symbol d.opener) (stack : List Token) :
    nest stack t = some (t :: stack) := by
  rw [nest, TokenKind.opens?_eq_some_iff.2 h]

theorem nest_of_isPlain (h : t.kind.IsPlain) (stack : List Token) : nest stack t = some stack := by
  rw [nest, h.1, h.2]

/-- A closing token closes the innermost one of its kind. -/
theorem nest_of_closer (h : t.kind = .symbol d.closer) :
    nest stack t = some rest ↔ ∃ o, stack = o :: rest ∧ o.kind = .symbol d.opener := by
  have hopens : t.kind.opens? = none := by rw [h, TokenKind.opens?_closer]
  rw [nest, hopens, TokenKind.closes?_eq_some_iff.2 h]
  cases stack with
  | nil => exact iff_of_false (fun h => nomatch h) fun ⟨o, ho, _⟩ => nomatch ho
  | cons o stack =>
    change (if o.kind.opens? = some d then some stack else none) = _ ↔ _
    rw [Option.ite_none_right_eq_some, TokenKind.opens?_eq_some_iff]
    constructor
    · rintro ⟨ho, hrest⟩
      exact ⟨o, by rw [Option.some.inj hrest], ho⟩
    · rintro ⟨o', heq, ho⟩
      obtain ⟨rfl, rfl⟩ := List.cons.inj heq
      exact ⟨ho, rfl⟩

/-- Every token opens, closes or is none of both. -/
theorem Token.delimiter_cases (t : Token) :
    (∃ d : Delimiter, t.kind = .symbol d.opener) ∨ (∃ d : Delimiter, t.kind = .symbol d.closer) ∨
      t.kind.IsPlain := by
  cases hopens : t.kind.opens? with
  | some d => exact .inl ⟨d, TokenKind.opens?_eq_some_iff.1 hopens⟩
  | none =>
    cases hcloses : t.kind.closes? with
    | some d => exact .inr (.inl ⟨d, TokenKind.closes?_eq_some_iff.1 hcloses⟩)
    | none => exact .inr (.inr ⟨hopens, hcloses⟩)

/-- A token does not touch what is below the stack that it is read on. -/
theorem nest_append_stack (h : nest stack t = some rest) (outer : List Token) :
    nest (stack ++ outer) t = some (rest ++ outer) := by
  obtain ⟨d, hd⟩ | ⟨d, hd⟩ | hplain := t.delimiter_cases
  · rw [nest_of_opener hd] at h ⊢
    rw [← Option.some.inj h]
    rfl
  · obtain ⟨o, rfl, ho⟩ := (nest_of_closer hd).1 h
    exact (nest_of_closer hd).2 ⟨o, rfl, ho⟩
  · rw [nest_of_isPlain hplain] at h ⊢
    rw [Option.some.inj h]

theorem openBehind_cons : openBehind stack (t :: ts) = (nest stack t).bind (openBehind · ts) :=
  List.foldlM_cons

theorem openBehind_append :
    openBehind stack (ts ++ us) = (openBehind stack ts).bind (openBehind · us) :=
  List.foldlM_append

theorem openBehind_concat :
    openBehind stack (ts ++ [t]) = (openBehind stack ts).bind (nest · t) := by
  rw [openBehind_append]
  congr 1
  funext s
  rw [openBehind_cons]
  cases nest s t <;> rfl

theorem openBehind_append_stack (h : openBehind stack ts = some rest) (outer : List Token) :
    openBehind (stack ++ outer) ts = some (rest ++ outer) := by
  induction ts generalizing stack with
  | nil =>
    obtain rfl := Option.some.inj h
    rfl
  | cons t ts ih =>
    rw [openBehind_cons] at h ⊢
    obtain ⟨s, hs, h⟩ := Option.bind_eq_some_iff.1 h
    rw [nest_append_stack hs]
    exact ih h

/-- Tokens that close all that they open, and nothing else. -/
def Balanced (ts : List Token) : Prop := openBehind [] ts = some []

instance (ts : List Token) : Decidable (Balanced ts) := inferInstanceAs (Decidable (_ = _))

theorem Balanced.openBehind_eq (h : Balanced ts) (stack : List Token) :
    openBehind stack ts = some stack := openBehind_append_stack h stack

/-- Behind a token that is still open there are tokens that leave open what is above it.  The
induction is on the tokens from the end, since the last one may close a token that is above. -/
theorem exists_of_openBehind (h : openBehind [] ts = some (above ++ o :: stack)) :
    ∃ before inner, ts = before ++ o :: inner ∧ openBehind [] before = some stack ∧
      openBehind [] inner = some above := by
  induction ts using List.reverseRecOn generalizing above with
  | nil => exact absurd (Option.some.inj h) (by simp)
  | append_singleton ts t ih =>
    rw [openBehind_concat] at h
    obtain ⟨s, hs, hnest⟩ := Option.bind_eq_some_iff.1 h
    -- If `o` was open before the last token, so it is behind it.
    have hlater {above'} (heq : s = above' ++ o :: stack) (h' : nest above' t = some above) :
        ∃ before inner, ts ++ [t] = before ++ o :: inner ∧ openBehind [] before = some stack ∧
          openBehind [] inner = some above := by
      rw [heq] at hs
      obtain ⟨before, inner, rfl, hbefore, hinner⟩ := ih hs
      refine ⟨before, inner ++ [t], ?_, hbefore, ?_⟩
      · rw [List.append_assoc, List.cons_append]
      · rw [openBehind_concat, hinner]
        exact h'
    obtain ⟨d, hd⟩ | ⟨d, hd⟩ | hplain := t.delimiter_cases
    · rw [nest_of_opener hd] at hnest
      cases above with
      | nil =>
        obtain ⟨rfl, rfl⟩ := List.cons.inj (Option.some.inj hnest)
        exact ⟨ts, [], rfl, hs, rfl⟩
      | cons first above =>
        obtain ⟨rfl, rfl⟩ := List.cons.inj (Option.some.inj hnest)
        exact hlater rfl (nest_of_opener hd above)
    · obtain ⟨m, rfl, hm⟩ := (nest_of_closer hd).1 hnest
      exact hlater (List.cons_append ▸ rfl) ((nest_of_closer hd).2 ⟨m, rfl, hm⟩)
    · rw [nest_of_isPlain hplain] at hnest
      exact hlater (Option.some.inj hnest) (nest_of_isPlain hplain above)

/-! ### Matching delimiters -/

/-- Two tokens of a kind that match: what is between them is balanced. -/
structure Delimiter.Matches (d : Delimiter) (ts : List Token) (i j : Nat) : Prop where
  lt : i < j
  opener : ts[i]?.map Token.kind = some (.symbol d.opener)
  closer : ts[j]?.map Token.kind = some (.symbol d.closer)
  balanced : Balanced ((ts.take j).drop (i + 1))

/-- No token closes in balanced tokens what is not opened there. -/
theorem Balanced.not_closer (h : Balanced inner) (hc : c.kind = .symbol d.closer)
    (hbefore : Balanced before) : inner ≠ before ++ c :: behind := by
  rintro rfl
  rw [Balanced, openBehind_append, hbefore, Option.bind_some, openBehind_cons] at h
  obtain ⟨s, hs, -⟩ := Option.bind_eq_some_iff.1 h
  obtain ⟨o, ho, -⟩ := (nest_of_closer hc).1 hs
  exact nomatch ho

theorem eq_take_cons_of_getElem? {i : Nat} (h : ts[i]? = some t) :
    ts = ts.take i ++ t :: ts.drop (i + 1) := by
  obtain ⟨hlt, rfl⟩ := List.getElem?_eq_some_iff.1 h
  rw [← List.drop_eq_getElem_cons hlt, List.take_append_drop]

/-- A token behind which all is balanced up to the end is not closed. -/
theorem not_matches_of_open (h : Balanced inner) (d : Delimiter) (j : Nat) :
    ¬ d.Matches (before ++ o :: inner) before.length j := by
  rintro ⟨hlt, -, hcloser, hbalanced⟩
  obtain ⟨k, rfl⟩ : ∃ k, j = (before ++ [o]).length + k :=
    ⟨j - (before.length + 1), by rw [List.length_append, List.length_singleton]; omega⟩
  obtain ⟨c, hc, hkind⟩ := Option.map_eq_some_iff.1 hcloser
  rw [List.append_cons before o inner, List.getElem?_append_right (Nat.le_add_right _ _),
    Nat.add_sub_cancel_left] at hc
  have hbetween : ((before ++ o :: inner).take ((before ++ [o]).length + k)).drop
      (before.length + 1) = inner.take k := by
    rw [List.append_cons before o inner, List.take_length_add_append]
    exact List.drop_left' (List.length_append)
  rw [hbetween] at hbalanced
  exact h.not_closer hkind hbalanced (eq_take_cons_of_getElem? hc)

/-- Where a closing token stands and another kind is open, or none, nothing matches it. -/
theorem not_matches_of_closer (h : openBehind [] before = some stack)
    (hstack : ∀ o ∈ stack.head?, o.kind ≠ .symbol d.opener) (i : Nat) :
    ¬ d.Matches (before ++ c :: behind) i before.length := by
  rintro ⟨hlt, hopener, -, hbalanced⟩
  obtain ⟨o, ho, hkind⟩ := Option.map_eq_some_iff.1 hopener
  rw [List.getElem?_append_left hlt] at ho
  rw [List.take_left] at hbalanced
  rw [eq_take_cons_of_getElem? ho, openBehind_append] at h
  obtain ⟨s, -, h⟩ := Option.bind_eq_some_iff.1 h
  rw [openBehind_cons, nest_of_opener hkind, Option.bind_some, hbalanced.openBehind_eq] at h
  exact hstack o (by rw [← Option.some.inj h]; rfl) hkind

end

end PathQuery
