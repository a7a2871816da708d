/-
A question mark that is put in front of a dot.

* **`Spelled.congr`** — a spelling depends on the two characters behind it;
* **`questionedDot`** — what the mark and the dot are read as;
* **`Reads.exists_dot`** — where a dot stands in a text;
* **`Reads.insertQuestion`** — a text with the mark is read as before, but for these tokens.

Design notes: only the token in front of the dot could swallow the mark, by becoming `??`; so it must
not be a question mark.  No other token goes on with one.
-/
import PathQuery.Proofs.Token.Spacing

namespace PathQuery

open Text

variable {afterDot : Bool} {rest rest' spelling text before behind : List Char} {kind : TokenKind}

/-! ### What stands behind a spelling -/

theorem startsWithDigit_eq (cs : List Char) : startsWithDigit cs = cs.head?.any Char.isDigit := by
  cases cs <;> rfl

theorem fractionDigits_eq_nil_iff : fractionDigits afterDot rest = [] ↔
    (rest.head? = some '.' → afterDot = true ∨ startsWithDigit rest.tail = false) := by
  unfold fractionDigits
  split
  case h_1 cs =>
    cases afterDot with
    | true => simp
    | false =>
      cases cs with
      | nil => simp [startsWithDigit]
      | cons c cs => cases hc : c.isDigit <;> simp [startsWithDigit, hc]
  case h_2 hpoint =>
    refine iff_of_true rfl fun hhead => ?_
    obtain ⟨cs, rfl⟩ := List.head?_eq_some_iff.1 hhead
    exact absurd rfl (hpoint cs)

theorem StopsAt.congr {p : Char → Bool} (hhead : rest.head? = rest'.head?) (h : StopsAt p rest) :
    StopsAt p rest' := by
  rwa [StopsAt, ← hhead]

theorem Symbol.EndsBefore.congr {s : Symbol} (hhead : rest.head? = rest'.head?)
    (htail : startsWithDigit rest.tail = startsWithDigit rest'.tail) (h : s.EndsBefore rest) :
    s.EndsBefore rest' := by
  cases s
  case question => exact ⟨hhead ▸ h.1, fun hpoint => htail ▸ h.2 (hhead ▸ hpoint)⟩
  case nullSafeDot =>
    show startsWithDigit rest' = false
    rw [startsWithDigit_eq, ← hhead, ← startsWithDigit_eq]
    exact h
  case equal => exact fun hc => h (hhead.trans hc)
  case notEqual => exact fun hc => h (hhead.trans hc)
  case less => exact fun hc => h (hhead.trans hc)
  case greater => exact fun hc => h (hhead.trans hc)
  all_goals trivial

/-- A spelling depends on the character behind it and on whether a digit stands behind that. -/
theorem Spelled.congr (hhead : rest.head? = rest'.head?)
    (htail : startsWithDigit rest.tail = startsWithDigit rest'.tail)
    (h : Spelled afterDot rest kind spelling) : Spelled afterDot rest' kind spelling := by
  cases h with
  | symbol h => exact .symbol (h.congr hhead htail)
  | word hw hr => exact .word hw (hr.congr hhead)
  | integer hne hdigits hn hr hfraction =>
    refine .integer hne hdigits hn (hr.congr hhead) ?_
    rw [fractionDigits_eq_nil_iff, ← hhead, ← htail]
    exact fractionDigits_eq_nil_iff.1 hfraction
  | float hdot hw hwhole hf hfraction hr =>
    exact .float hdot hw hwhole hf hfraction (hr.congr hhead)
  | string hquote h => exact .string hquote h

/-- Every spelling but that of a question mark remains one in front of a question mark. -/
theorem Spelled.beforeQuestion (h : Spelled afterDot rest kind spelling)
    (hkind : kind ≠ .symbol .question) : Spelled afterDot ('?' :: rest') kind spelling := by
  have hpart : StopsAt isNamePart ('?' :: rest') := by
    intro c hc
    obtain rfl : '?' = c := by simpa using hc
    decide
  cases h with
  | @symbol s =>
    refine .symbol ?_
    cases s
    case question => exact absurd rfl hkind
    case nullSafeDot => exact rfl
    case equal => exact Option.some_inj.not.2 (by decide)
    case notEqual => exact Option.some_inj.not.2 (by decide)
    case less => exact Option.some_inj.not.2 (by decide)
    case greater => exact Option.some_inj.not.2 (by decide)
    all_goals trivial
  | word hw => exact .word hw hpart
  | integer hne hdigits hn => exact .integer hne hdigits hn hpart.isDigit rfl
  | float hdot hw hwhole hf hfraction => exact .float hdot hw hwhole hf hfraction hpart.isDigit
  | string hquote h => exact .string hquote h

/-- What starts with a dot is the symbol. -/
theorem Spelled.eq_dot (h : Spelled afterDot rest kind spelling)
    (htext : spelling ++ rest = '.' :: behind) : kind = .symbol .dot ∧ rest = behind := by
  obtain ⟨position', hscan⟩ := h.scans.scan .start
  rw [htext] at hscan
  have hdot : scanKind afterDot ⟨'.' :: behind, .start⟩ =
      (.ok (.symbol .dot), Cursor.drop 1 ⟨'.' :: behind, .start⟩) := rfl
  obtain ⟨hkind, hcursor⟩ := Prod.mk.inj (hdot.symm.trans hscan)
  exact ⟨(Except.ok.inj hkind).symm, (congrArg Cursor.rest hcursor).symm⟩

/-- A dot is written as a dot. -/
theorem Spelled.of_dot (h : Spelled afterDot rest (.symbol .dot) spelling) : spelling = ['.'] := by
  generalize hkind : TokenKind.symbol .dot = kind at h
  cases h with
  | symbol =>
    cases hkind
    rfl
  | word =>
    -- The words of the language that are symbols are AND and OR.
    unfold wordKind at hkind
    split_ifs at hkind <;> cases hkind
  | integer => cases hkind
  | float => cases hkind
  | string => cases hkind

/-! ### Texts with a mark -/

variable {position stop : Position} {tokens : List Token}

theorem Reads.lexes (h : Reads afterDot position text tokens stop) :
    Lexes afterDot text (tokens.map Token.kind) := by
  induction h with
  | @nil afterDot position gap hgap =>
    have hlexes := Lexes.blanks hgap (.nil afterDot)
    rwa [List.append_nil] at hlexes
  | cons hgap hs hr ih => exact .blanks hgap (.cons hs.scans ih)

theorem Reads.offset_le (h : Reads afterDot position text tokens stop) :
    ∀ token ∈ tokens, position.offset ≤ token.position.offset := by
  induction h with
  | nil => exact fun _ h => absurd h List.not_mem_nil
  | cons hgap hs hr ih =>
    rintro token (_ | ⟨_, ht⟩)
    · rw [Position.offset_afterAll]
      exact Nat.le_add_right _ _
    · refine Nat.le_trans ?_ (ih token ht)
      rw [Position.offset_afterAll]
      exact Nat.le_add_right _ _

/-- A dot stands in the text where its token says. -/
theorem Reads.exists_dot (h : Reads afterDot position text tokens stop) :
    ∀ {k : Nat} {place : Position}, tokens[k]? = some ⟨.symbol .dot, place⟩ →
      ∃ before behind, text = before ++ '.' :: behind ∧
        place.offset = position.offset + before.length := by
  induction h with
  | nil => exact fun hk => absurd hk (by simp)
  | @cons afterDot position stop gap spelling rest kind tokens hgap hs hr ih =>
    rintro (_ | k) place hk
    · obtain ⟨rfl, rfl⟩ := Token.mk.inj (Option.some.inj hk)
      obtain rfl := hs.of_dot
      exact ⟨gap, rest, rfl, Position.offset_afterAll _ _⟩
    · obtain ⟨before, behind, rfl, hplace⟩ := ih hk
      refine ⟨gap ++ (spelling ++ before), behind, by simp, ?_⟩
      rw [hplace, Position.offset_afterAll]
      simp only [List.length_append]
      omega

/-- A text that starts with a dot is read as one and more. -/
theorem Reads.head_dot (h : Reads afterDot position ('.' :: behind) tokens stop) :
    ∃ kinds, tokens.map Token.kind = .symbol .dot :: kinds := by
  have hblank : isBlank '.' = false := by decide
  generalize htext : '.' :: behind = text at h
  cases h with
  | nil hgap =>
    have hdot := hgap '.' (by rw [← htext]; exact List.mem_cons_self)
    exact absurd hdot (by simp [hblank])
  | @cons _ _ _ gap _ _ _ tokens hgap hs hr =>
    cases gap with
    | nil =>
      obtain ⟨rfl, -⟩ := hs.eq_dot htext.symm
      exact ⟨_, rfl⟩
    | cons c gap =>
      obtain ⟨rfl, -⟩ := List.cons.inj htext
      exact absurd (hgap _ List.mem_cons_self) (by simp [hblank])

/-- What a question mark and a dot are read as, in front of a text: the point of a number belongs
to the number. -/
def questionedDot (behind : List Char) : List TokenKind :=
  if startsWithDigit behind then [.symbol .question, .symbol .dot] else [.symbol .nullSafeDot]

theorem lexes_questionedDot {kinds : List TokenKind} (h : Lexes true behind kinds) :
    Lexes afterDot ('?' :: '.' :: behind) (questionedDot behind ++ kinds) := by
  unfold questionedDot
  split
  case isTrue hdigit => exact .cons (.symbol (if_pos hdigit)) (.cons (.symbol rfl) h)
  case isFalse hdigit => exact .cons (.symbol (if_neg hdigit)) h

/-- A text is read as before if a question mark is put in front of a dot, but for the dot. -/
theorem Reads.insertQuestion (h : Reads afterDot position text tokens stop) :
    ∀ {k : Nat} {place : Position} {before behind : List Char},
      ¬ [.symbol .question, .symbol .dot] <:+: tokens.map Token.kind →
      tokens[k]? = some ⟨.symbol .dot, place⟩ → text = before ++ '.' :: behind →
      place.offset = position.offset + before.length →
        Lexes afterDot (before ++ '?' :: '.' :: behind)
          ((tokens.map Token.kind).take k ++
            (questionedDot behind ++ (tokens.map Token.kind).drop (k + 1))) := by
  induction h with
  | nil =>
    intro k place before behind _ hk
    exact absurd hk (by simp)
  | @cons afterDot position stop gap spelling rest kind tokens hgap hs hr ih =>
    intro k place before behind hquestion hk htext hplace
    cases k with
    | zero =>
      -- The dot is the first token, so that the text before it is the gap.
      obtain ⟨rfl, rfl⟩ := Token.mk.inj (Option.some.inj hk)
      rw [Position.offset_afterAll] at hplace
      obtain ⟨rfl, hdot⟩ := List.append_inj htext (Nat.add_left_cancel hplace)
      obtain ⟨-, rfl⟩ := hs.eq_dot hdot
      exact .blanks hgap (lexes_questionedDot hr.lexes)
    | succ k =>
      have hle := hr.offset_le _ (List.mem_of_getElem? hk)
      rw [Position.offset_afterAll, hplace] at hle
      -- The token lies before the dot, so that the text before the dot goes on behind it.
      rw [← List.append_assoc] at htext
      obtain ⟨between, rfl⟩ : gap ++ spelling <+: before :=
        List.prefix_of_prefix_length_le ⟨rest, htext⟩ (List.prefix_append before _)
          (Nat.le_of_add_le_add_left hle)
      rw [List.append_assoc _ between] at htext
      obtain rfl := List.append_cancel_left htext
      have hspelled : Spelled afterDot (between ++ '?' :: '.' :: behind) kind spelling := by
        cases between with
        | nil =>
          refine hs.beforeQuestion ?_
          rintro rfl
          obtain ⟨kinds, hkinds⟩ := hr.head_dot
          exact hquestion ⟨[], kinds, by rw [List.map_cons, hkinds]; rfl⟩
        | cons c between =>
          refine Spelled.congr ?_ ?_ hs
          · rfl
          · cases between <;> rfl
      have hlexes := ih (fun h => hquestion (h.trans (List.suffix_cons _ _).isInfix)) hk rfl (by
        rw [hplace, Position.offset_afterAll, List.length_append, Nat.add_assoc])
      rw [List.append_assoc, List.append_assoc]
      exact .blanks hgap (.cons hspelled.scans hlexes)

end PathQuery
