/-
Where tokens and lexical errors stand.

* **`Lexer.answers`** — what a lexer answers when it is asked again and again, errors or not;
* **`Lexer.isPlaceOf_answers`** — all those answers stand at places of the text;
* **`Lexer.pairwise_offset_lt`** — and each token behind the tokens before it.

Design notes: a scan that fails leaves the cursor inside of a token, and an error may stand before
the cursor it leaves (a string that is not closed is reported where it opens).  So the cursor behind
a scan and the place of an error are followed apart: both are reached from the cursor in front.
-/
import PathQuery.Proofs.Token.Spelling

namespace PathQuery

open Text

/-! ### One token -/

theorem reaches_scanString (quote : Char) (opened : Position) (rest : List Char)
    (position : Position) :
    Cursor.Reaches ⟨rest, position⟩ (scanString quote opened rest position).2 := by
  fun_induction scanString quote opened rest position with
  | case1 => exact .refl _
  | case2 => exact ⟨_, .single _ _ _⟩
  | case3 => exact ⟨_, .single _ _ _⟩
  | case4 => exact ⟨_, .single _ _ _⟩
  | case5 position escaped rest plain hplain content cursor hquote hrest ih =>
    rw [hrest] at ih
    exact .trans ⟨_, (Cursor.Takes.single _ _ _).append (.single _ _ _)⟩ ih
  | case6 c rest position hquote hslash content cursor hrest ih =>
    rw [hrest] at ih
    exact .trans ⟨_, .single _ _ _⟩ ih

/-- A string that is not closed is reported where it opens, an escape where its backslash is. -/
theorem passes_scanString {quote : Char} {opened : Position} {rest : List Char}
    {position : Position} {e : LexError} (h : (scanString quote opened rest position).1 = .error e) :
    e.position = opened ∨ Cursor.Passes ⟨rest, position⟩ e.position := by
  fun_induction scanString quote opened rest position with
  | case1 => exact .inl (by rw [← Except.error.inj h])
  | case2 => exact absurd h (by simp)
  | case3 => exact .inl (by rw [← Except.error.inj h])
  | case4 => exact .inr (by rw [← Except.error.inj h]; exact .here _)
  | case5 position escaped rest plain hplain content cursor hquote hrest ih =>
    rw [hrest] at ih
    cases content with
    | error e' =>
      obtain rfl := Except.error.inj h
      exact (ih rfl).imp_right
        (Cursor.Reaches.passes ⟨_, (Cursor.Takes.single _ _ _).append (.single _ _ _)⟩)
    | ok cs => exact absurd h (by simp [Except.map])
  | case6 c rest position hquote hslash content cursor hrest ih =>
    rw [hrest] at ih
    cases content with
    | error e' =>
      obtain rfl := Except.error.inj h
      exact (ih rfl).imp_right (Cursor.Reaches.passes ⟨_, .single _ _ _⟩)
    | ok cs => exact absurd h (by simp [Except.map])

theorem reaches_scanNumber (afterDot : Bool) (c : Cursor) : c.Reaches (scanNumber afterDot c).2 := by
  simp only [scanNumber]
  split
  · split <;> exact ⟨_, c.takes_drop _⟩
  · exact ⟨_, c.takes_drop _⟩

theorem position_of_scanNumber {afterDot : Bool} {c : Cursor} {e : LexError}
    (h : (scanNumber afterDot c).1 = .error e) : e.position = c.position := by
  simp only [scanNumber] at h
  split at h
  · split at h
    · exact absurd h (by simp)
    · rw [← Except.error.inj h]
  · exact absurd h (by simp)

/-- Behind a token or an error the cursor is not before the token. -/
theorem reaches_scanKind (afterDot : Bool) (c : Cursor) : c.Reaches (scanKind afterDot c).2 := by
  obtain ⟨text, position⟩ := c
  unfold scanKind
  split
  case h_1 => exact .refl _
  case h_2 first rest hrest =>
    obtain rfl : text = first :: rest := hrest
    split
    · exact ⟨_, Cursor.takes_drop _ _⟩
    · split_ifs
      · exact .trans ⟨_, .single _ _ _⟩ (reaches_scanString first position rest _)
      · exact ⟨_, Cursor.takes_dropWhile _ _⟩
      · exact reaches_scanNumber afterDot _
      · exact .refl _
      · exact .refl _

theorem passes_scanKind {afterDot : Bool} {c : Cursor} {e : LexError}
    (h : (scanKind afterDot c).1 = .error e) : c.Passes e.position := by
  obtain ⟨text, position⟩ := c
  unfold scanKind at h
  split at h
  case h_1 => exact absurd h (by simp)
  case h_2 first rest hrest =>
    obtain rfl : text = first :: rest := hrest
    split at h
    · exact absurd h (by simp)
    · split_ifs at h with hquote hstart hdigit hpunctuation
      · cases hs : (scanString first position rest (position.after first)).1 with
        | ok cs => simp [hs, Except.map] at h
        | error e' =>
          obtain rfl : e' = e := by simpa [hs, Except.map] using h
          rcases passes_scanString hs with hopened | hpasses
          · exact ⟨_, .refl _, hopened.symm⟩
          · exact Cursor.Reaches.passes ⟨_, .single _ _ _⟩ hpasses
      · exact ⟨_, .refl _, (position_of_scanNumber h).symm⟩
      · rw [← Except.error.inj h]
        exact .here _
      · rw [← Except.error.inj h]
        exact .here _

/-! ### One call -/

/-- The place that an answer of the lexer carries. -/
def placeOf : Except LexError Token → Position
  | .ok token => token.position
  | .error e => e.position

/-- The token that an answer brings, unless it is an error or the end of input. -/
def properToken? : Except LexError Token → Option Token
  | .ok token => if token.kind = .endOfInput then none else some token
  | .error _ => none

namespace Lexer

theorem reaches_next (l : Lexer) : l.cursor.Reaches l.next.2.cursor := by
  have hgap : l.cursor.Reaches (l.cursor.dropWhile isBlank) := ⟨_, l.cursor.takes_dropWhile _⟩
  have hscan := reaches_scanKind l.afterDot (l.cursor.dropWhile isBlank)
  rw [next]
  split
  case h_1 kind cursor h =>
    rw [h] at hscan
    exact hgap.trans hscan
  case h_2 e cursor h =>
    rw [h] at hscan
    exact hgap.trans hscan

theorem passes_next (l : Lexer) : l.cursor.Passes (placeOf l.next.1) := by
  have hgap : l.cursor.Reaches (l.cursor.dropWhile isBlank) := ⟨_, l.cursor.takes_dropWhile _⟩
  rw [next]
  split
  case h_1 => exact hgap.passes (.here _)
  case h_2 e cursor h => exact hgap.passes (passes_scanKind (congrArg Prod.fst h))

/-- A token takes characters: behind it the lexer stands behind its place. -/
theorem offset_lt_next {l : Lexer} {token : Token} (h : properToken? l.next.1 = some token) :
    token.position.offset < l.next.2.cursor.position.offset := by
  cases hnext : l.next with
  | mk answer l' =>
    rw [hnext] at h
    cases answer with
    | error e => exact absurd h (by simp [properToken?])
    | ok t =>
      rw [properToken?] at h
      split at h
      case isTrue => exact absurd h (by simp)
      case isFalse hend =>
        obtain rfl := Option.some.inj h
        obtain ⟨gap, -, hposition, ⟨hkind, -⟩ | ⟨spelling, hs, htakes, -⟩⟩ := next_ok hnext
        · exact absurd hkind hend
        · have hpos := List.length_pos_iff.2 hs.ne_nil
          rw [hposition, htakes.position, Position.offset_afterAll, Position.offset_afterAll,
            List.length_append]
          omega

/-! ### Any number of calls -/

/-- What a lexer answers when it is asked `n` times. -/
def answers (l : Lexer) : (n : Nat) → List (Except LexError Token)
  | 0 => []
  | n + 1 => l.next.1 :: l.next.2.answers n

theorem passes_answers (n : Nat) : ∀ (l : Lexer), ∀ a ∈ l.answers n,
    l.cursor.Passes (placeOf a) := by
  induction n with
  | zero => exact fun _ _ ha => absurd ha List.not_mem_nil
  | succ n ih =>
    rintro l a (_ | ⟨_, ha⟩)
    · exact l.passes_next
    · exact l.reaches_next.passes (ih l.next.2 a ha)

/-- All answers, tokens and errors, stand at places of the text. -/
theorem isPlaceOf_answers {text : String} {n : Nat} {a : Except LexError Token}
    (h : a ∈ (ofString text).answers n) : (placeOf a).IsPlaceOf text.toList :=
  (passes_answers n (ofString text) a h).isPlaceOf

theorem offset_le_answers {l : Lexer} {n : Nat} {token : Token}
    (h : token ∈ (l.answers n).filterMap properToken?) :
    l.cursor.position.offset ≤ token.position.offset := by
  obtain ⟨a, ha, htoken⟩ := List.mem_filterMap.1 h
  obtain ⟨c, hc, hplace⟩ := passes_answers n l a ha
  have hposition : placeOf a = token.position := by
    cases a with
    | error e => exact absurd htoken (by simp [properToken?])
    | ok t =>
      rw [properToken?] at htoken
      split at htoken
      · exact absurd htoken (by simp)
      · rw [← Option.some.inj htoken]
        rfl
  rw [← hposition, ← hplace]
  exact hc.offset_le

/-- Each token stands behind all tokens before it, whatever errors lie between them. -/
theorem pairwise_offset_lt (n : Nat) : ∀ l : Lexer,
    ((l.answers n).filterMap properToken?).Pairwise
      (fun s t => s.position.offset < t.position.offset) := by
  induction n with
  | zero => exact fun _ => .nil
  | succ n ih =>
    intro l
    rw [answers]
    cases hfirst : properToken? l.next.1 with
    | none =>
      rw [List.filterMap_cons_none hfirst]
      exact ih l.next.2
    | some token =>
      rw [List.filterMap_cons_some hfirst]
      refine .cons (fun t ht => ?_) (ih l.next.2)
      exact Nat.lt_of_lt_of_le (offset_lt_next hfirst) (offset_le_answers ht)

end Lexer

end PathQuery
