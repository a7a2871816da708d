/-
What a text is read as, token by token.

* **`Lexes`** — the tokens of a text, whatever place it starts at;
* **`Scans`** — the token at the front of a text, and what is left behind it;
* **`Lexes.cons`**, **`Lexes.blank`** — a token or a blank in front of what has been read;
* **`Scans.symbol`**, **`Scans.name`**, **`Scans.string`** — the tokens that need no arithmetic.

Design notes: places do not matter for what a token is, so they are left out by quantifying over
them; what follows a token does, so every statement has the rest of the text.
-/
import Mathlib.Algebra.Group.Nat.Defs
import Mathlib.Tactic.ByContra
import Mathlib.Tactic.SplitIfs
import PathQuery.Expr.Canonical
import PathQuery.Token.Scan

namespace PathQuery

open Text

/-- The kinds of the tokens of a stream. -/
def TokenStream.kinds (stream : TokenStream) : List TokenKind := stream.tokens.map Token.kind

/-- A lexer in front of `text` reads tokens of the given kinds up to the end. -/
def Lexes (afterDot : Bool) (text : List Char) (kinds : List TokenKind) : Prop :=
  ∀ ⦃position : Position⦄ ⦃limit : Nat⦄, text.length < limit →
    ∃ stream, Lexer.stream ⟨⟨text, position⟩, afterDot⟩ limit = .ok stream ∧ stream.kinds = kinds

/-- A lexer in front of `text` reads a token of the given kind, with `rest` behind it. -/
structure Scans (afterDot : Bool) (text : List Char) (kind : TokenKind) (rest : List Char) :
    Prop where
  not_blank : text.dropWhile isBlank = text
  scan : ∀ position, ∃ position',
    scanKind afterDot ⟨text, position⟩ = (.ok kind, ⟨rest, position'⟩)
  not_end : kind ≠ .endOfInput
  shorter : rest.length < text.length

variable {afterDot : Bool} {text rest : List Char} {kind : TokenKind} {kinds : List TokenKind}

/-! ### Tokens in a row -/

theorem Lexes.tokenize {text : String} (h : Lexes false text.toList kinds) :
    ∃ stream, tokenize text = .ok stream ∧ stream.kinds = kinds := h (Nat.lt_succ_self _)

theorem Lexes.nil (afterDot : Bool) : Lexes afterDot [] [] := by
  intro position limit hlimit
  obtain ⟨limit, rfl⟩ := Nat.exists_eq_succ_of_ne_zero (Nat.ne_of_gt hlimit)
  exact ⟨⟨[], position⟩, rfl, rfl⟩

theorem takeWhile_eq_nil_of_dropWhile {p : Char → Bool} {cs : List Char}
    (h : cs.dropWhile p = cs) : cs.takeWhile p = [] := by
  have hsplit : cs.takeWhile p ++ cs.dropWhile p = cs := List.takeWhile_append_dropWhile
  rw [h] at hsplit
  exact List.append_left_eq_self.1 hsplit

theorem Lexes.cons (hs : Scans afterDot text kind rest) (hr : Lexes kind.isDot rest kinds) :
    Lexes afterDot text (kind :: kinds) := by
  intro position limit hlimit
  obtain ⟨limit, rfl⟩ := Nat.exists_eq_succ_of_ne_zero (Nat.ne_of_gt (Nat.zero_lt_of_lt hlimit))
  obtain ⟨position', hscan⟩ := hs.scan position
  obtain ⟨stream, hstream, hkinds⟩ :=
    @hr position' limit (Nat.lt_of_lt_of_le hs.shorter (Nat.le_of_lt_succ hlimit))
  -- No blank stands in front of the token, so it is the next one.
  have hnext : Lexer.next ⟨⟨text, position⟩, afterDot⟩ =
      (.ok ⟨kind, position⟩, ⟨⟨rest, position'⟩, kind.isDot⟩) := by
    simp only [Lexer.next, Cursor.dropWhile, hs.not_blank,
      takeWhile_eq_nil_of_dropWhile hs.not_blank]
    rw [show position.afterAll [] = position from rfl, hscan]
  refine ⟨{ stream with tokens := ⟨kind, position⟩ :: stream.tokens }, ?_, ?_⟩
  · rw [Lexer.stream, hnext]
    simp only [if_neg hs.not_end, hstream]
    rfl
  · rw [← hkinds]
    rfl

/-- Blanks in front of a token do not count. -/
theorem Lexes.blank {c : Char} (hc : isBlank c = true) (hr : Lexes afterDot rest kinds) :
    Lexes afterDot (c :: rest) kinds := by
  intro position limit hlimit
  have hlt : rest.length < limit := Nat.lt_of_succ_lt hlimit
  obtain ⟨stream, hstream, hkinds⟩ := @hr (position.after c) _ hlt
  obtain ⟨limit, rfl⟩ := Nat.exists_eq_succ_of_ne_zero (Nat.ne_of_gt (Nat.zero_lt_of_lt hlimit))
  -- The lexer drops all blanks at once, this one and those behind it.
  have hnext : Lexer.next ⟨⟨c :: rest, position⟩, afterDot⟩ =
      Lexer.next ⟨⟨rest, position.after c⟩, afterDot⟩ := by
    simp only [Lexer.next, Cursor.dropWhile, List.dropWhile_cons_of_pos hc,
      List.takeWhile_cons_of_pos hc]
    rfl
  refine ⟨stream, ?_, hkinds⟩
  rw [← hstream, Lexer.stream, Lexer.stream, hnext]

theorem Lexes.space (hr : Lexes afterDot rest kinds) : Lexes afterDot (' ' :: rest) kinds :=
  hr.blank (by decide)

/-! ### Symbols -/

/-- The characters that symbols start with. -/
def symbolStarts : List Char :=
  ['.', ',', '+', '-', '*', '/', '%', ':', '(', ')', '[', ']', '?', '=', '!', '<', '>', '&', '|']

theorem symbolAt_eq_some {symbol : Symbol} {width : Nat}
    (h : symbolAt text = some (symbol, width)) :
    0 < width ∧ ∃ c cs, text = c :: cs ∧ c ∈ symbolStarts := by
  unfold symbolAt at h
  split at h
  -- A question mark in front of a point is told apart by what follows the point.
  case h_14 => split at h <;> cases h <;> exact ⟨by decide, _, _, rfl, by decide⟩
  all_goals first
    | contradiction
    | cases h; exact ⟨by decide, _, _, rfl, by decide⟩

theorem symbolAt_eq_none {c : Char} (hc : c ∉ symbolStarts) (cs : List Char) :
    symbolAt (c :: cs) = none := by
  by_contra h
  obtain ⟨⟨symbol, width⟩, h⟩ := Option.ne_none_iff_exists'.1 h
  obtain ⟨-, c', cs', htext, hc'⟩ := symbolAt_eq_some h
  obtain ⟨rfl, -⟩ := List.cons.inj htext
  exact hc hc'

theorem isBlank_of_mem_symbolStarts {c : Char} (hc : c ∈ symbolStarts) : isBlank c = false := by
  have hstarts : symbolStarts.all (fun d => !isBlank d) = true := by decide
  simpa using List.all_eq_true.1 hstarts c hc

theorem dropWhile_isBlank {c : Char} (hc : isBlank c = false) (cs : List Char) :
    (c :: cs).dropWhile isBlank = c :: cs := List.dropWhile_cons_of_neg (by simp [hc])

theorem Scans.symbol {symbol : Symbol} {width : Nat} (h : symbolAt text = some (symbol, width)) :
    Scans afterDot text (.symbol symbol) (text.drop width) := by
  obtain ⟨hwidth, c, cs, rfl, hc⟩ := symbolAt_eq_some h
  refine ⟨dropWhile_isBlank (isBlank_of_mem_symbolStarts hc) cs,
    fun position => ⟨position.afterAll ((c :: cs).take width), ?_⟩, by simp, ?_⟩
  · simp only [scanKind, h]
    rfl
  · rw [List.length_drop, List.length_cons]
    omega

/-! ### Names -/

/-- The text does not go on with characters of a class. -/
def StopsAt (p : Char → Bool) (rest : List Char) : Prop := ∀ c ∈ rest.head?, p c = false

theorem StopsAt.takeWhile {p : Char → Bool} {cs : List Char} (h : StopsAt p rest)
    (hcs : ∀ c ∈ cs, p c = true) : (cs ++ rest).takeWhile p = cs := by
  rw [List.takeWhile_append_of_pos hcs]
  cases rest with
  | nil => simp
  | cons c rest => simp [List.takeWhile_cons_of_neg, h c rfl]

theorem StopsAt.dropWhile {p : Char → Bool} {cs : List Char} (h : StopsAt p rest)
    (hcs : ∀ c ∈ cs, p c = true) : (cs ++ rest).dropWhile p = rest := by
  rw [List.dropWhile_append_of_pos hcs]
  cases rest with
  | nil => simp
  | cons c rest => simp [List.dropWhile_cons_of_neg, h c rfl]

theorem isNamePart_of_isNameStart {c : Char} (h : isNameStart c = true) : isNamePart c = true := by
  rw [isNameStart, Bool.or_eq_true] at h
  rw [isNamePart]
  rcases h with h | h <;> simp [h]

/-- The blanks, one by one. -/
def blanks : List Nat :=
  [9, 10, 11, 12, 13, 0x20, 0x85, 0xA0, 0x1680, 0x2000, 0x2001, 0x2002, 0x2003, 0x2004, 0x2005,
   0x2006, 0x2007, 0x2008, 0x2009, 0x200A, 0x2028, 0x2029, 0x202F, 0x205F, 0x3000]

theorem exists_range {n : Nat} {ranges : List (Nat × Nat)} (h : inRanges n ranges = true) :
    ∃ range ∈ ranges, range.1 ≤ n ∧ n ≤ range.2 := by
  induction ranges with
  | nil => exact absurd h (by simp [inRanges])
  | cons range ranges ih =>
    rw [inRanges] at h
    split at h
    · exact absurd h (by simp)
    · split at h
      · exact ⟨range, List.mem_cons_self, by omega, by omega⟩
      · obtain ⟨r, hr, hn⟩ := ih h
        exact ⟨r, List.mem_cons_of_mem _ hr, hn⟩

theorem mem_blanks {n : Nat} (h : inRanges n blankRanges = true) : n ∈ blanks := by
  have hrange := exists_range h
  simp only [blankRanges, List.mem_cons, List.not_mem_nil, or_false, exists_eq_or_imp,
    exists_eq_left] at hrange
  simp only [blanks, List.mem_cons, List.not_mem_nil, or_false]
  omega

theorem isBlank_of_isNameStart {c : Char} (h : isNameStart c = true) : isBlank c = false := by
  by_contra hblank
  have hmem : c.toNat ∈ blanks := mem_blanks (by simpa [isBlank] using hblank)
  -- The blanks are few, the letters are not: each blank is looked up among the letters.
  have hletter : ∀ n ∈ blanks, inRanges n alphabeticRanges = false ∧ n ≠ 95 := by decide +kernel
  obtain ⟨hletter, hunderscore⟩ := hletter _ hmem
  rw [isNameStart, isLetter, hletter, Bool.false_or, beq_iff_eq] at h
  subst h
  exact hunderscore rfl

theorem not_mem_symbolStarts {c : Char} (h : isNameStart c = true) : c ∉ symbolStarts := by
  have hstarts : symbolStarts.all (fun d => !isNameStart d) = true := by decide
  intro hmem
  have hc : isNameStart c = false := by simpa using List.all_eq_true.1 hstarts c hmem
  rw [hc] at h
  exact absurd h (by decide)

/-- The text of a name, which may be a word of the language. -/
def IsWord (cs : List Char) : Prop :=
  (∃ c ∈ cs.head?, isNameStart c = true) ∧ ∀ c ∈ cs, isNamePart c = true

theorem isWord_of_all {cs : List Char} (h : cs.head?.any isNameStart = true)
    (hparts : cs.all isNamePart = true) : IsWord cs := by
  cases cs with
  | nil => exact absurd h (by decide)
  | cons c cs => exact ⟨⟨c, rfl, h⟩, List.all_eq_true.1 hparts⟩

theorem wordKind_ne_end (name : String) : wordKind name ≠ .endOfInput := by
  unfold wordKind
  split_ifs <;> simp

theorem Scans.word {cs : List Char} (hw : IsWord cs) (hr : StopsAt isNamePart rest) :
    Scans afterDot (cs ++ rest) (wordKind (String.ofList cs)) rest := by
  obtain ⟨⟨c, hhead, hstart⟩, hparts⟩ := hw
  cases cs with
  | nil => exact absurd hhead (by simp)
  | cons c' cs =>
    obtain rfl : c' = c := by simpa using hhead
    -- The first character of a word starts neither a symbol nor a string.
    have hquote : ¬ (c' = '"' ∨ c' = '\'') := by
      rintro (rfl | rfl) <;> exact absurd hstart (by decide)
    refine ⟨dropWhile_isBlank (isBlank_of_isNameStart hstart) _, fun position => ?_,
      wordKind_ne_end _, ?_⟩
    · refine ⟨position.afterAll (c' :: cs), ?_⟩
      simp only [scanKind, List.cons_append, symbolAt_eq_none (not_mem_symbolStarts hstart),
        if_neg hquote, if_pos hstart, Cursor.dropWhile]
      rw [← List.cons_append, hr.takeWhile hparts, hr.dropWhile hparts]
    · rw [List.length_append, List.length_cons]
      omega

/-- A name that is no word of the language. -/
structure IsName (name : String) : Prop where
  word : IsWord name.toList
  kind : wordKind name = .identifier name

theorem Scans.name {name : String} (hn : IsName name) (hr : StopsAt isNamePart rest) :
    Scans afterDot (name.toList ++ rest) (.identifier name) rest := by
  have h : Scans afterDot (name.toList ++ rest) (wordKind (String.ofList name.toList)) rest :=
    .word hn.word hr
  rwa [String.ofList_toList, hn.kind] at h

/-! ### Strings -/

/-- What a content is written as between quotes.  A character stands for itself unless it is the
quote or a backslash; one behind a backslash stands for what it is read as. -/
inductive Quoted (quote : Char) : (spelling content : List Char) → Prop
  | nil : Quoted quote [] []
  | plain {c : Char} {cs content : List Char} (hquote : c ≠ quote) (hslash : c ≠ '\\')
      (h : Quoted quote cs content) : Quoted quote (c :: cs) (c :: content)
  | escaped {c d : Char} {cs content : List Char} (hd : unescape d = some c)
      (h : Quoted quote cs content) : Quoted quote ('\\' :: d :: cs) (c :: content)

/-- The two quotes. -/
def IsQuote (c : Char) : Prop := c = '"' ∨ c = '\''

theorem IsQuote.ne_backslash {quote : Char} (h : IsQuote quote) : '\\' ≠ quote := by
  rcases h with rfl | rfl <;> decide

/-- What is quoted is read back up to the closing quote. -/
theorem scanString_of_quoted {quote : Char} (hquote : IsQuote quote) {cs content : List Char}
    (h : Quoted quote cs content) (opened : Position) (rest : List Char) : ∀ position : Position,
    ∃ position', scanString quote opened (cs ++ quote :: rest) position =
      (.ok content, ⟨rest, position'⟩) := by
  induction h with
  | nil =>
    intro position
    refine ⟨position.after quote, ?_⟩
    rw [List.nil_append, scanString.eq_def]
    exact if_pos rfl
  | @plain c cs content hc hslash h ih =>
    intro position
    obtain ⟨position', hrest⟩ := ih (position.after c)
    refine ⟨position', ?_⟩
    rw [List.cons_append, scanString.eq_def]
    simp only [if_neg hc, if_neg hslash, hrest]
    rfl
  | @escaped c d cs content hd h ih =>
    intro position
    obtain ⟨position', hrest⟩ := ih ((position.after '\\').after d)
    refine ⟨position', ?_⟩
    rw [List.cons_append, List.cons_append, scanString.eq_def]
    simp only [if_neg hquote.ne_backslash, if_true, hd, hrest]
    rfl

theorem Scans.quoted {quote : Char} (hquote : IsQuote quote) {cs content : List Char}
    (h : Quoted quote cs content) (rest : List Char) :
    Scans afterDot (quote :: (cs ++ [quote]) ++ rest) (.string (String.ofList content)) rest := by
  have hstart : quote ∉ symbolStarts := by rcases hquote with rfl | rfl <;> decide
  have hblank : isBlank quote = false := by rcases hquote with rfl | rfl <;> decide
  rw [List.cons_append, List.append_assoc, List.singleton_append]
  refine ⟨dropWhile_isBlank hblank _, fun position => ?_, by simp, ?_⟩
  · obtain ⟨position', hcontent⟩ :=
      scanString_of_quoted hquote h position rest (position.after quote)
    refine ⟨position', ?_⟩
    simp only [scanKind, symbolAt_eq_none hstart, if_pos (show quote = '"' ∨ quote = '\'' from hquote),
      hcontent]
    rfl
  · rw [List.length_cons, List.length_append, List.length_cons]
    omega

/-- A character is written plainly or behind a backslash, and reads back. -/
theorem escapeChar_cases (c : Char) :
    (∃ d, escapeChar c = ['\\', d] ∧ unescape d = some c) ∨
      escapeChar c = [c] ∧ c ≠ '\'' ∧ c ≠ '\\' := by
  unfold escapeChar
  split_ifs with h hn ht hr
  · exact .inl ⟨c, rfl, by rcases h with rfl | rfl <;> rfl⟩
  · exact .inl ⟨'n', rfl, by rw [hn]; rfl⟩
  · exact .inl ⟨'t', rfl, by rw [ht]; rfl⟩
  · exact .inl ⟨'r', rfl, by rw [hr]; rfl⟩
  · exact .inr ⟨rfl, not_or.1 h⟩

theorem quoted_escaped (cs : List Char) : Quoted '\'' (cs.flatMap escapeChar) cs := by
  induction cs with
  | nil => exact .nil
  | cons c cs ih =>
    rw [List.flatMap_cons]
    rcases escapeChar_cases c with ⟨d, hd, hc⟩ | ⟨hd, hquote, hslash⟩
    · rw [hd]
      exact .escaped hc ih
    · rw [hd]
      exact .plain hquote hslash ih

theorem toList_quoteString (s : String) :
    (quoteString s).toList = '\'' :: (s.toList.flatMap escapeChar ++ ['\'']) := by
  simp [quoteString, String.toList_append]

theorem Scans.string (s : String) (rest : List Char) :
    Scans afterDot ((quoteString s).toList ++ rest) (.string s) rest := by
  have h : Scans afterDot ('\'' :: (s.toList.flatMap escapeChar ++ ['\'']) ++ rest)
      (.string (String.ofList s.toList)) rest := .quoted (.inr rfl) (quoted_escaped s.toList) rest
  rwa [← toList_quoteString, String.ofList_toList] at h

end PathQuery
