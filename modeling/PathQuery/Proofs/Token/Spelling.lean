/-
How tokens are written.

* **`Symbol.EndsBefore`** — what follows a symbol does not make it a longer one;
* **`Spelled`** — the characters that a token is written with, in front of a text;
* **`Spelled.scans`** — a spelling is read as its token;
* **`exists_spelled_of_scanKind`** — whatever is read was written as a spelling of it.

Design notes: a token is the longest that the text allows, so whether some characters are read as a
token depends on those behind them, though never on more than two.  `Spelled` says of each kind of
token what has to be known of them.
-/
import PathQuery.Proofs.Token.Cursor
import PathQuery.Proofs.Token.Lexed

namespace PathQuery

open Text

/-! ### Symbols -/

/-- What follows a symbol does not make it another one.  A question mark goes on to `??`, and to
`?.` if no digit is behind the point; some comparisons go on with `=`. -/
def Symbol.EndsBefore (rest : List Char) : Symbol → Prop
  | .question => rest.head? ≠ some '?' ∧
      (rest.head? = some '.' → startsWithDigit rest.tail = true)
  | .nullSafeDot => startsWithDigit rest = false
  | .equal => rest.head? ≠ some '='
  | .notEqual => rest.head? ≠ some '='
  | .less => rest.head? ≠ some '='
  | .greater => rest.head? ≠ some '='
  | _ => True

theorem forall_ne_cons {c : Char} {rest : List Char} (h : rest.head? ≠ some c) (tail : List Char) :
    rest = c :: tail → False := by
  rintro rfl
  exact h rfl

theorem head?_ne_some {c : Char} {rest : List Char} (h : ∀ tail, rest = c :: tail → False) :
    rest.head? ≠ some c := by
  intro hc
  obtain ⟨tail, htail⟩ := List.head?_eq_some_iff.1 hc
  exact h tail htail

theorem symbolAt_spelling {rest : List Char} {s : Symbol} (h : s.EndsBefore rest) :
    symbolAt (s.spelling.toList ++ rest) = some (s, s.spelling.toList.length) := by
  cases s
  case question =>
    obtain ⟨hquestion, hdot⟩ := h
    by_cases hpoint : rest.head? = some '.'
    · obtain ⟨cs, rfl⟩ := List.head?_eq_some_iff.1 hpoint
      exact if_pos (hdot rfl)
    · show symbolAt ('?' :: rest) = _
      rw [symbolAt]
      · rfl
      · exact forall_ne_cons hquestion
      · exact forall_ne_cons hpoint
  case nullSafeDot => exact if_neg (Bool.eq_false_iff.1 h)
  case equal =>
    show symbolAt ('=' :: '=' :: rest) = _
    rw [symbolAt]
    · rfl
    · exact forall_ne_cons h
  case notEqual =>
    show symbolAt ('!' :: '=' :: rest) = _
    rw [symbolAt]
    · rfl
    · exact forall_ne_cons h
  case less =>
    show symbolAt ('<' :: rest) = _
    rw [symbolAt]
    · rfl
    · exact forall_ne_cons h
  case greater =>
    show symbolAt ('>' :: rest) = _
    rw [symbolAt]
    · rfl
    · exact forall_ne_cons h
  all_goals rfl

theorem exists_endsBefore_of_symbolAt {text : List Char} {s : Symbol} {width : Nat}
    (h : symbolAt text = some (s, width)) :
    ∃ rest, text = s.spelling.toList ++ rest ∧ width = s.spelling.toList.length ∧
      s.EndsBefore rest := by
  unfold symbolAt at h
  split at h
  case h_14 rest =>
    split at h
    case isTrue hdigit => cases h; exact ⟨'.' :: rest, rfl, rfl, by simp, fun _ => hdigit⟩
    case isFalse hdigit => cases h; exact ⟨rest, rfl, rfl, Bool.eq_false_iff.2 hdigit⟩
  case h_15 rest hquestion hpoint =>
    cases h
    exact ⟨rest, rfl, rfl, head?_ne_some hquestion, fun hc => absurd hc (head?_ne_some hpoint)⟩
  case h_17 rest hlonger => cases h; exact ⟨rest, rfl, rfl, head?_ne_some hlonger⟩
  case h_20 rest hlonger => cases h; exact ⟨rest, rfl, rfl, head?_ne_some hlonger⟩
  case h_22 rest hlonger => cases h; exact ⟨rest, rfl, rfl, head?_ne_some hlonger⟩
  case h_24 rest hlonger => cases h; exact ⟨rest, rfl, rfl, head?_ne_some hlonger⟩
  all_goals first
    | contradiction
    | cases h; exact ⟨_, rfl, rfl, trivial⟩

/-! ### Tokens -/

/-- The characters that a token is written with, where `rest` stands behind them.  Behind a dot a
number takes no fraction. -/
inductive Spelled (afterDot : Bool) (rest : List Char) : TokenKind → List Char → Prop
  | symbol {s : Symbol} (h : s.EndsBefore rest) :
      Spelled afterDot rest (.symbol s) s.spelling.toList
  | word {cs : List Char} (hw : IsWord cs) (hr : StopsAt isNamePart rest) :
      Spelled afterDot rest (wordKind (String.ofList cs)) cs
  | integer {digits : List Char} {n : Int64} (hne : digits ≠ [])
      (hdigits : ∀ c ∈ digits, c.isDigit = true)
      (hn : int64Of? (Nat.ofDigitChars 10 digits 0) = some n) (hr : StopsAt Char.isDigit rest)
      (hfraction : fractionDigits afterDot rest = []) :
      Spelled afterDot rest (.integer n) digits
  | float {whole fraction : List Char} (hdot : afterDot = false) (hw : whole ≠ [])
      (hwhole : ∀ c ∈ whole, c.isDigit = true) (hf : fraction ≠ [])
      (hfraction : ∀ c ∈ fraction, c.isDigit = true) (hr : StopsAt Char.isDigit rest) :
      Spelled afterDot rest
        (.float (Numeral.toBinary64
          ⟨Nat.ofDigitChars 10 (whole ++ fraction) 0, -(fraction.length : Int)⟩))
        (whole ++ '.' :: fraction)
  | string {quote : Char} {cs content : List Char} (hquote : IsQuote quote)
      (h : Quoted quote cs content) :
      Spelled afterDot rest (.string (String.ofList content)) (quote :: (cs ++ [quote]))

variable {afterDot : Bool} {rest : List Char} {kind : TokenKind} {spelling : List Char}

theorem Spelled.scans (h : Spelled afterDot rest kind spelling) :
    Scans afterDot (spelling ++ rest) kind rest := by
  cases h with
  | @symbol s h =>
    have hscans : Scans afterDot (s.spelling.toList ++ rest) (.symbol s)
        ((s.spelling.toList ++ rest).drop s.spelling.toList.length) := .symbol (symbolAt_spelling h)
    rwa [List.drop_left] at hscans
  | word hw hr => exact .word hw hr
  | integer hne hdigits hn hr hfraction => exact .digits hne hdigits hn hr hfraction
  | float hdot hw hwhole hf hfraction hr =>
    rw [hdot, List.append_assoc, List.cons_append]
    exact .float hw hwhole hf hfraction hr
  | string hquote h => exact .quoted hquote h rest

theorem Spelled.ne_nil (h : Spelled afterDot rest kind spelling) : spelling ≠ [] := by
  have hshorter := h.scans.shorter
  rintro rfl
  exact absurd hshorter (by simp)

theorem Spelled.ne_endOfInput (h : Spelled afterDot rest kind spelling) : kind ≠ .endOfInput :=
  h.scans.not_end

/-! ### What has been read -/

theorem exists_quoted_of_scanString {quote : Char} {opened : Position} {rest content : List Char}
    {position : Position} {c' : Cursor}
    (h : scanString quote opened rest position = (.ok content, c')) :
    ∃ cs, Quoted quote cs content ∧ Cursor.Takes ⟨rest, position⟩ (cs ++ [quote]) c' := by
  fun_induction scanString quote opened rest position generalizing content with
  | case1 => exact absurd h (by simp)
  | case2 rest position =>
    cases h
    exact ⟨[], .nil, .single quote rest position⟩
  | case3 => exact absurd h (by simp)
  | case4 => exact absurd h (by simp)
  | case5 position escaped rest plain hplain result cursor hquote hrest ih =>
    obtain ⟨hmap, rfl⟩ := Prod.mk.inj h
    cases result with
    | error e => exact absurd hmap (by simp [Except.map])
    | ok cs =>
      obtain rfl := Except.ok.inj hmap
      obtain ⟨spelling, hquoted, htakes⟩ := ih hrest
      have hback : Cursor.Takes ⟨'\\' :: escaped :: rest, position⟩ ['\\', escaped] ⟨rest, _⟩ :=
        .append (.single '\\' _ position) (.single escaped rest _)
      exact ⟨'\\' :: escaped :: spelling, .escaped hplain hquoted, hback.append htakes⟩
  | case6 c rest position hquote hslash result cursor hrest ih =>
    obtain ⟨hmap, rfl⟩ := Prod.mk.inj h
    cases result with
    | error e => exact absurd hmap (by simp [Except.map])
    | ok cs =>
      obtain rfl := Except.ok.inj hmap
      obtain ⟨spelling, hquoted, htakes⟩ := ih hrest
      exact ⟨c :: spelling, .plain hquote hslash hquoted,
        (Cursor.Takes.single c rest position).append htakes⟩

theorem stopsAt_dropWhile (p : Char → Bool) (cs : List Char) : StopsAt p (cs.dropWhile p) := by
  intro c hc
  have hnot := List.head?_dropWhile_not p cs
  rw [Option.mem_def.1 hc] at hnot
  simpa using hnot

/-- Digits of a fraction are found only behind a point that is not behind a dot. -/
theorem exists_point_of_fractionDigits {text : List Char} (h : fractionDigits afterDot text ≠ []) :
    afterDot = false ∧ (∀ c ∈ fractionDigits afterDot text, c.isDigit = true) ∧
      ∃ rest, text = '.' :: (fractionDigits afterDot text ++ rest) ∧
        StopsAt Char.isDigit rest := by
  unfold fractionDigits at h ⊢
  split at h
  case h_1 rest =>
    cases afterDot with
    | true => exact absurd rfl h
    | false =>
      refine ⟨rfl, List.all_eq_true.1 List.all_takeWhile, rest.dropWhile Char.isDigit, ?_,
        stopsAt_dropWhile _ _⟩
      rw [if_neg Bool.false_ne_true, List.takeWhile_append_dropWhile]
  case h_2 => exact absurd rfl h

theorem exists_spelled_of_scanNumber {c c' : Cursor} (hne : c.rest.takeWhile Char.isDigit ≠ [])
    (h : scanNumber afterDot c = (.ok kind, c')) :
    ∃ spelling, Spelled afterDot c'.rest kind spelling ∧ c.Takes spelling c' := by
  have hall : ∀ a ∈ c.rest.takeWhile Char.isDigit, a.isDigit = true :=
    List.all_eq_true.1 List.all_takeWhile
  have hsplit : c.rest = c.rest.takeWhile Char.isDigit ++ c.rest.dropWhile Char.isDigit :=
    List.takeWhile_append_dropWhile.symm
  simp only [scanNumber] at h
  split at h
  case isTrue hnone =>
    split at h
    case h_1 n hn =>
      cases h
      refine ⟨c.rest.takeWhile Char.isDigit, ?_, Cursor.takes_drop_length hsplit⟩
      rw [Cursor.drop_length hsplit]
      exact .integer hne hall hn (stopsAt_dropWhile _ _) hnone
    case h_2 => exact absurd h (by simp)
  case isFalse hsome =>
    cases h
    obtain ⟨hdot, hdigits, rest, hpoint, hstops⟩ := exists_point_of_fractionDigits hsome
    generalize hwhole : c.rest.takeWhile Char.isDigit = whole at *
    generalize hfraction : fractionDigits afterDot (c.rest.dropWhile Char.isDigit) = fraction at *
    have hrest : c.rest = (whole ++ '.' :: fraction) ++ rest := by
      rw [hsplit, hpoint, List.append_assoc, List.cons_append]
    have hlength : whole.length + 1 + fraction.length = (whole ++ '.' :: fraction).length := by
      rw [List.length_append, List.length_cons]
      omega
    rw [hlength]
    refine ⟨whole ++ '.' :: fraction, ?_, Cursor.takes_drop_length hrest⟩
    rw [Cursor.drop_length hrest]
    exact .float hdot hne hall hsome hdigits hstops

theorem exists_spelled_of_scanKind {c c' : Cursor} (hne : c.rest ≠ [])
    (h : scanKind afterDot c = (.ok kind, c')) :
    ∃ spelling, Spelled afterDot c'.rest kind spelling ∧ c.Takes spelling c' := by
  obtain ⟨text, position⟩ := c
  unfold scanKind at h
  split at h
  case h_1 hnil => exact absurd hnil hne
  case h_2 first rest hrest =>
    obtain rfl : text = first :: rest := hrest
    split at h
    case h_1 s width hsymbol =>
      cases h
      obtain ⟨rest', htext, rfl, hends⟩ := exists_endsBefore_of_symbolAt hsymbol
      refine ⟨s.spelling.toList, ?_, Cursor.takes_drop_length htext⟩
      rw [Cursor.drop_length htext]
      exact .symbol hends
    case h_2 =>
      split_ifs at h with hquote hstart hdigit hpunctuation
      · obtain ⟨hmap, rfl⟩ := Prod.mk.inj h
        cases hs : scanString first position rest (position.after first) with
        | mk result cursor =>
          rw [hs] at hmap
          cases result with
          | error e => exact absurd hmap (by simp [Except.map])
          | ok content =>
            obtain rfl := Except.ok.inj hmap
            obtain ⟨cs, hquoted, htakes⟩ := exists_quoted_of_scanString hs
            exact ⟨first :: (cs ++ [first]), .string hquote hquoted,
              (Cursor.Takes.single first rest position).append htakes⟩
      · cases h
        refine ⟨_, .word (isWord_takeWhile hstart rest) (stopsAt_dropWhile _ _), ?_⟩
        exact Cursor.takes_dropWhile _ _
      · refine exists_spelled_of_scanNumber ?_ h
        rw [List.takeWhile_cons_of_pos hdigit]
        exact List.cons_ne_nil _ _
      · exact absurd h (by simp)
      · exact absurd h (by simp)

/-! ### One call of the lexer -/

/-- Blanks and nothing else. -/
def IsGap (gap : List Char) : Prop := ∀ c ∈ gap, isBlank c = true

theorem isGap_takeWhile (cs : List Char) : IsGap (cs.takeWhile isBlank) :=
  List.all_eq_true.1 List.all_takeWhile

/-- A call that does not fail passes blanks, and then it is at the end or takes a spelling. -/
theorem Lexer.next_ok {l l' : Lexer} {token : Token} (h : l.next = (.ok token, l')) :
    ∃ gap, IsGap gap ∧ token.position = l.cursor.position.afterAll gap ∧
      (token.kind = .endOfInput ∧ l.cursor.rest = gap ∨
        ∃ spelling, Spelled l.afterDot l'.cursor.rest token.kind spelling ∧
          l.cursor.Takes (gap ++ spelling) l'.cursor ∧ l'.afterDot = token.kind.isDot) := by
  have hgap := l.cursor.takes_dropWhile isBlank
  refine ⟨l.cursor.rest.takeWhile isBlank, isGap_takeWhile _, ?_⟩
  rw [Lexer.next] at h
  generalize l.cursor.dropWhile isBlank = start at *
  split at h
  case h_1 kind cursor hscan =>
    obtain ⟨htoken, rfl⟩ := Prod.mk.inj h
    obtain rfl := Except.ok.inj htoken
    refine ⟨hgap.position, ?_⟩
    by_cases hend : start.rest = []
    · left
      refine ⟨?_, ?_⟩
      · simp only [scanKind, hend] at hscan
        exact (Except.ok.inj (Prod.mk.inj hscan).1).symm
      · have hrest := hgap.rest
        rwa [hend, List.append_nil] at hrest
    · obtain ⟨spelling, hspelled, htakes⟩ := exists_spelled_of_scanKind hend hscan
      exact .inr ⟨spelling, hspelled, hgap.append htakes, rfl⟩
  case h_2 => exact absurd h (by simp)

end PathQuery
