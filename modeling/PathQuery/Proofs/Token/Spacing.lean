/-
Blanks between tokens.

* **`Reads`** — how a text is read: blanks, a spelling, blanks, a spelling, and blanks at the end;
* **`Lexer.reads_of_stream`** — every text with tokens is read like that;
* **`spread`**, **`SpelledRow`** — spellings with blanks around them, and what they spell in a row;
* **`exists_spread_of_tokenize`** — a text with tokens is their spellings spread out, and spread out
  otherwise they are read as the same tokens.

Design notes: a token depends on what stands behind it and on whether a dot stands before it.  In
front of a blank every token may end, and the dot is remembered over blanks; so a row of spellings
keeps the dots and forgets the gaps.
-/
import PathQuery.Proofs.Token.Spelling

namespace PathQuery

open Text

/-! ### In front of what is no part of a token -/

variable {afterDot : Bool} {rest rest' spelling : List Char} {kind : TokenKind}

/-- The text does not go on with a character that a token in front of it could take. -/
structure IsOver (rest : List Char) : Prop where
  stopsAt : StopsAt isNamePart rest
  head?_ne : ∀ c ∈ ['.', '=', '?'], rest.head? ≠ some c

theorem IsOver.startsWithDigit (h : IsOver rest) : startsWithDigit rest = false := by
  cases rest with
  | nil => rfl
  | cons c rest => exact h.stopsAt.isDigit c rfl

theorem IsOver.fractionDigits (h : IsOver rest) : fractionDigits afterDot rest = [] := by
  unfold PathQuery.fractionDigits
  split
  case h_1 cs => exact absurd rfl (h.head?_ne '.' (by decide))
  case h_2 => rfl

/-- There every symbol ends. -/
theorem IsOver.endsBefore (h : IsOver rest) (s : Symbol) : s.EndsBefore rest := by
  cases s
  case question =>
    exact ⟨h.head?_ne '?' (by decide), fun hpoint => absurd hpoint (h.head?_ne '.' (by decide))⟩
  case nullSafeDot => exact h.startsWithDigit
  case equal => exact h.head?_ne '=' (by decide)
  case notEqual => exact h.head?_ne '=' (by decide)
  case less => exact h.head?_ne '=' (by decide)
  case greater => exact h.head?_ne '=' (by decide)
  all_goals trivial

/-- A spelling remains one there. -/
theorem Spelled.over (h : Spelled afterDot rest kind spelling) (hr : IsOver rest') :
    Spelled afterDot rest' kind spelling := by
  cases h with
  | symbol => exact .symbol (hr.endsBefore _)
  | word hw => exact .word hw hr.stopsAt
  | integer hne hdigits hn => exact .integer hne hdigits hn hr.stopsAt.isDigit hr.fractionDigits
  | float hdot hw hwhole hf hfraction =>
    exact .float hdot hw hwhole hf hfraction hr.stopsAt.isDigit
  | string hquote h => exact .string hquote h

/-- The text is at its end or goes on with a blank. -/
def IsApart (rest : List Char) : Prop := ∀ c ∈ rest.head?, isBlank c = true

theorem isNamePart_of_isBlank {c : Char} (h : isBlank c = true) : isNamePart c = false := by
  have hmem : c.toNat ∈ blanks := mem_blanks h
  have hpart : ∀ n ∈ blanks, inRanges n alphabeticRanges = false ∧
      inRanges n numericRanges = false ∧ n ≠ 95 := by decide +kernel
  obtain ⟨hletter, hnumeral, hunderscore⟩ := hpart _ hmem
  have hne : (c == '_') = false := by
    refine beq_eq_false_iff_ne.2 ?_
    rintro rfl
    exact hunderscore rfl
  rw [isNamePart, isLetter, isNumeral, hletter, hnumeral, hne]
  rfl

/-- A blank is no part of a token. -/
theorem IsApart.isOver (h : IsApart rest) : IsOver rest where
  stopsAt c hc := isNamePart_of_isBlank (h c hc)
  head?_ne c hc hhead := by
    simp only [List.mem_cons, List.not_mem_nil, or_false] at hc
    obtain rfl | rfl | rfl := hc <;> exact absurd (h _ hhead) (by decide)

/-! ### How a text is read -/

/-- A text that starts at a place is blanks, the spelling of a token, and so on; a token stands
where its spelling starts, and the end behind all. -/
inductive Reads : (afterDot : Bool) → Position → List Char → List Token → Position → Prop
  | nil {afterDot : Bool} {position : Position} {gap : List Char} (hgap : IsGap gap) :
      Reads afterDot position gap [] (position.afterAll gap)
  | cons {afterDot : Bool} {position stop : Position} {gap spelling rest : List Char}
      {kind : TokenKind} {tokens : List Token} (hgap : IsGap gap)
      (hs : Spelled afterDot rest kind spelling)
      (hr : Reads kind.isDot (position.afterAll (gap ++ spelling)) rest tokens stop) :
      Reads afterDot position (gap ++ (spelling ++ rest))
        (⟨kind, position.afterAll gap⟩ :: tokens) stop

theorem Lexer.reads_of_stream (limit : Nat) : ∀ {l : Lexer} {stream : TokenStream},
    l.cursor.rest.length < limit → l.stream limit = .ok stream →
      Reads l.afterDot l.cursor.position l.cursor.rest stream.tokens stream.stop := by
  induction limit with
  | zero => exact fun hlimit => absurd hlimit (Nat.not_lt_zero _)
  | succ limit ih =>
    intro l stream hlimit h
    rw [Lexer.stream] at h
    split at h
    case h_1 => exact absurd h (by simp)
    case h_2 token l' hnext =>
      obtain ⟨gap, hgap, hposition, ⟨hend, hrest⟩ | ⟨spelling, hs, htakes, hdot⟩⟩ :=
        Lexer.next_ok hnext
      · obtain rfl := Except.ok.inj ((if_pos hend).symm.trans h)
        rw [hposition, hrest]
        exact .nil hgap
      · rw [if_neg hs.ne_endOfInput] at h
        cases hstream : l'.stream limit with
        | error e => rw [hstream] at h; exact absurd h (by simp [Except.map])
        | ok stream' =>
          rw [hstream] at h
          obtain rfl := Except.ok.inj h
          -- A token takes a character, so the limit is above what is left.
          have hshorter : l'.cursor.rest.length < limit := by
            have hlength := congrArg List.length htakes.rest
            have hpos := List.length_pos_iff.2 hs.ne_nil
            rw [List.length_append, List.length_append] at hlength
            omega
          have hreads := ih hshorter hstream
          rw [hdot, htakes.position] at hreads
          rw [htakes.rest, List.append_assoc]
          have htoken : token = ⟨token.kind, l.cursor.position.afterAll gap⟩ := by
            rw [← hposition]
          rw [htoken]
          exact .cons hgap hs hreads

theorem reads_of_tokenize {text : String} {stream : TokenStream} (h : tokenize text = .ok stream) :
    Reads false .start text.toList stream.tokens stream.stop :=
  Lexer.reads_of_stream _ (Nat.lt_succ_self _) h

/-! ### Spellings spread out -/

/-- Spellings with gaps before, between and behind them. -/
def spread (gap : Nat → List Char) : List (List Char) → List Char
  | [] => gap 0
  | spelling :: spellings => gap 0 ++ (spelling ++ spread (fun i => gap (i + 1)) spellings)

/-- Spellings of the given kinds in a row, each with the dots in mind and blanks behind it. -/
inductive SpelledRow : (afterDot : Bool) → List TokenKind → List (List Char) → Prop
  | nil {afterDot : Bool} : SpelledRow afterDot [] []
  | cons {afterDot : Bool} {kind : TokenKind} {kinds : List TokenKind} {spelling : List Char}
      {spellings : List (List Char)} (hs : Spelled afterDot [] kind spelling)
      (hr : SpelledRow kind.isDot kinds spellings) :
      SpelledRow afterDot (kind :: kinds) (spelling :: spellings)

variable {kinds : List TokenKind} {spellings : List (List Char)}

theorem Lexes.blanks {gap : List Char} (hgap : IsGap gap) (hr : Lexes afterDot rest kinds) :
    Lexes afterDot (gap ++ rest) kinds := by
  induction gap with
  | nil => exact hr
  | cons c gap ih =>
    exact (ih fun d hd => hgap d (List.mem_cons_of_mem c hd)).blank (hgap c List.mem_cons_self)

theorem isApart_append {gap : List Char} (hgap : IsGap gap) (hne : gap ≠ []) (rest : List Char) :
    IsApart (gap ++ rest) := by
  obtain ⟨c, cs, rfl⟩ := List.exists_cons_of_ne_nil hne
  intro d hd
  obtain rfl : c = d := by simpa using hd
  exact hgap c List.mem_cons_self

theorem isApart_of_isGap {gap : List Char} (hgap : IsGap gap) : IsApart gap := by
  cases gap with
  | nil => exact fun c hc => absurd hc (by simp)
  | cons c cs => simpa using isApart_append hgap (List.cons_ne_nil c cs) []

/-- With blanks between them the spellings are read one by one. -/
theorem SpelledRow.lexes (h : SpelledRow afterDot kinds spellings) :
    ∀ {gap : Nat → List Char}, (∀ i, IsGap (gap i)) →
      (∀ i, 0 < i → i < spellings.length → gap i ≠ []) →
        Lexes afterDot (spread gap spellings) kinds := by
  induction h with
  | @nil afterDot =>
    intro gap hgap _
    have hlexes := Lexes.blanks (hgap 0) (.nil afterDot)
    rwa [List.append_nil] at hlexes
  | @cons afterDot kind kinds spelling spellings hs hr ih =>
    intro gap hgap hne
    have hapart : IsApart (spread (fun i => gap (i + 1)) spellings) := by
      cases spellings with
      | nil => exact isApart_of_isGap (hgap 1)
      | cons l ls => exact isApart_append (hgap 1) (hne 1 Nat.one_pos (by simp)) _
    refine Lexes.blanks (hgap 0) (.cons (hs.over hapart.isOver).scans (ih (fun i => hgap (i + 1)) ?_))
    exact fun i hi hlt => hne (i + 1) (Nat.succ_pos i) (Nat.succ_lt_succ hlt)

theorem SpelledRow.ne_nil (h : SpelledRow afterDot kinds spellings) :
    ∀ spelling ∈ spellings, spelling ≠ [] := by
  induction h with
  | nil => exact fun _ hl => absurd hl (List.not_mem_nil)
  | cons hs hr ih =>
    rintro l (_ | ⟨_, hl⟩)
    · exact hs.ne_nil
    · exact ih l hl

/-- What is read is spellings spread out, and each token stands where its spelling starts. -/
theorem Reads.exists_spread {position stop : Position} {text : List Char} {tokens : List Token}
    (h : Reads afterDot position text tokens stop) :
    ∃ gap spellings, text = spread gap spellings ∧ (∀ i, IsGap (gap i)) ∧
      SpelledRow afterDot (tokens.map Token.kind) spellings ∧
      (∀ i token, tokens[i]? = some token →
        token.position = position.afterAll (spread gap (spellings.take i))) ∧
      stop = position.afterAll text := by
  induction h with
  | @nil afterDot position gap hgap =>
    exact ⟨fun _ => gap, [], rfl, fun _ => hgap, .nil, by simp, rfl⟩
  | @cons afterDot position stop gap spelling rest kind tokens hgap hs hr ih =>
    obtain ⟨gaps, spellings, rfl, hgaps, hrow, htokens, hstop⟩ := ih
    refine ⟨fun i => Nat.casesOn i gap gaps, spelling :: spellings, rfl, ?_, ?_, ?_, ?_⟩
    · rintro (_ | i)
      · exact hgap
      · exact hgaps i
    · exact .cons (hs.over (isApart_of_isGap fun _ h => absurd h List.not_mem_nil).isOver) hrow
    · rintro (_ | i) token htoken
      · obtain rfl : _ = token := Option.some.inj htoken
        rfl
      · rw [htokens i token htoken, ← Position.afterAll_append, List.append_assoc]
        rfl
    · rw [hstop, ← Position.afterAll_append, List.append_assoc]

/-! ### Texts with tokens -/

/-- A text with tokens is their spellings with blanks around them, each token where its spelling
starts and the end of input behind them all and nowhere else.  The same spellings with other blanks
are read as the same tokens, if there are blanks between any two. -/
theorem exists_spread_of_tokenize {text : String} {stream : TokenStream}
    (h : tokenize text = .ok stream) :
    ∃ (gap : Nat → List Char) (spellings : List (List Char)),
      text.toList = spread gap spellings ∧ (∀ i, IsGap (gap i)) ∧
      SpelledRow false stream.kinds spellings ∧ (∀ spelling ∈ spellings, spelling ≠ []) ∧
      (∀ i token, stream.tokens[i]? = some token →
        token.position.offset = (spread gap (spellings.take i)).length) ∧
      .endOfInput ∉ stream.kinds ∧ stream.stop.offset = text.length ∧
      ∀ gap' : Nat → List Char, (∀ i, IsGap (gap' i)) →
        (∀ i, 0 < i → i < spellings.length → gap' i ≠ []) →
          ∃ stream', tokenize (String.ofList (spread gap' spellings)) = .ok stream' ∧
            stream'.kinds = stream.kinds := by
  obtain ⟨gap, spellings, htext, hgap, hrow, htokens, hstop⟩ := (reads_of_tokenize h).exists_spread
  refine ⟨gap, spellings, htext, hgap, hrow, hrow.ne_nil, ?_, endOfInput_not_mem h, ?_, ?_⟩
  · intro i token htoken
    rw [htokens i token htoken, Position.offset_afterAll]
    exact Nat.zero_add _
  · rw [hstop, Position.offset_afterAll, String.length_toList]
    exact Nat.zero_add _
  · intro gap' hgap' hne
    refine Lexes.tokenize ?_
    rw [String.toList_ofList]
    exact hrow.lexes hgap' hne

/-- A question mark in front of a point and a digit is a token of its own, with blanks or without. -/
theorem exists_spread_of_conditional :
    ∃ stream, tokenize "a?.5:'b c'" = .ok stream ∧
      stream.kinds = [.identifier "a", .symbol .question, .symbol .dot, .integer 5,
        .symbol .colon, .string "b c"] ∧
      ∃ gap spellings, "a?.5:'b c'".toList = spread gap spellings ∧
        ∃ stream', tokenize (String.ofList (spread (fun _ => [' ', '\n']) spellings)) = .ok stream' ∧
          stream'.kinds = stream.kinds := by
  obtain ⟨stream, hstream, hkinds⟩ := readsAs_eq_true.1
    (show readsAs "a?.5:'b c'" [.identifier "a", .symbol .question, .symbol .dot, .integer 5,
      .symbol .colon, .string "b c"] = true by decide +kernel)
  obtain ⟨gap, spellings, htext, -, -, -, -, -, -, hrespaced⟩ := exists_spread_of_tokenize hstream
  refine ⟨stream, hstream, hkinds, gap, spellings, htext, hrespaced _ ?_ ?_⟩
  · exact fun _ => List.all_eq_true.1 (by decide)
  · exact fun _ _ _ => List.cons_ne_nil _ _

end PathQuery
