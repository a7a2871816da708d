/-
What the tokens of a text are.

* **`TokenKind.IsLexed`** — names are names, and numbers have no sign and are no NaN;
* **`Lexer.isLexed_stream`** — all tokens of a text are like that;
* **`isName_iff`** — a text that is read as one name consists of the characters of a name, and is no
  word of the language.
-/
import PathQuery.Proofs.Number.Fits
import PathQuery.Proofs.Number.ReadBack
import PathQuery.Proofs.Token.Numbers

namespace PathQuery

open Text

/-- The tokens that a text can have. -/
def TokenKind.IsLexed : TokenKind → Prop
  | .identifier name => IsName name
  | .integer n => ¬ n < 0
  | .float x => x.isNaN = false ∧ x.isNegative = false
  | .endOfInput => False
  | _ => True

/-! ### Single tokens -/

theorem wordKind_eq_identifier {name m : String} (h : wordKind name = .identifier m) :
    m = name := by
  unfold wordKind at h
  split_ifs at h
  exact (TokenKind.identifier.inj h).symm

theorem isLexed_wordKind {name : String} (h : IsWord name.toList) : (wordKind name).IsLexed := by
  cases hk : wordKind name with
  | identifier m =>
    obtain rfl := wordKind_eq_identifier hk
    exact ⟨h, hk⟩
  | symbol s => trivial
  | boolean b => trivial
  | null => trivial
  | string s => trivial
  | endOfInput => exact wordKind_ne_end name hk
  | integer n =>
    unfold wordKind at hk
    split_ifs at hk
  | float x =>
    unfold wordKind at hk
    split_ifs at hk

theorem isWord_takeWhile {c : Char} (h : isNameStart c = true) (cs : List Char) :
    IsWord ((c :: cs).takeWhile isNamePart) := by
  constructor
  · rw [List.takeWhile_cons_of_pos (isNamePart_of_isNameStart h)]
    exact ⟨c, rfl, h⟩
  · exact List.all_eq_true.1 List.all_takeWhile

theorem isLexed_scanNumber {afterDot : Bool} {c c' : Cursor} {kind : TokenKind}
    (h : scanNumber afterDot c = (.ok kind, c')) : kind.IsLexed := by
  rw [scanNumber] at h
  simp only [] at h
  split at h
  · split at h
    case h_1 k hk =>
      cases h
      -- An integer is the number of its digits, which has no sign.
      have hnat := int64Of?_eq_some_iff.1 hk
      show ¬ k < 0
      rw [Int64.lt_iff_toInt_lt, hnat, Int64.toInt_zero]
      omega
    case h_2 => exact absurd h (by simp)
  · cases h
    -- A float is the number nearest to a numeral, which has no sign either.
    refine ⟨Numeral.isNaN_toBinary64 _, ?_⟩
    obtain ⟨m, hm, hn⟩ := Numeral.exists_magnitude
      ⟨Nat.ofDigitChars 10 (c.rest.takeWhile Char.isDigit ++
        fractionDigits afterDot (c.rest.dropWhile Char.isDigit)) 0,
        -((fractionDigits afterDot (c.rest.dropWhile Char.isDigit)).length : Int)⟩
    rw [hn, Binary64.isNegative_ofMagnitude (Nat.lt_of_le_of_lt hm Binary64.infinityBits_lt)]

theorem isLexed_scanKind {afterDot : Bool} {c c' : Cursor} {kind : TokenKind}
    (h : scanKind afterDot c = (.ok kind, c')) (hend : kind ≠ .endOfInput) : kind.IsLexed := by
  unfold scanKind at h
  split at h
  case h_1 =>
    cases h
    exact absurd rfl hend
  case h_2 first rest hrest =>
    split at h
    case h_1 => cases h; trivial
    case h_2 =>
      split_ifs at h with hquote hstart hdigit hpunctuation
      · simp only [Prod.mk.injEq] at h
        obtain ⟨h, -⟩ := h
        cases hs : (scanString first c.position rest (c.position.after first)).1 with
        | error e => rw [hs] at h; exact absurd h (by simp [Except.map])
        | ok cs =>
          rw [hs] at h
          obtain rfl := Except.ok.inj h
          trivial
      · cases h
        refine isLexed_wordKind ?_
        rw [String.toList_ofList, hrest]
        exact isWord_takeWhile hstart rest
      · exact isLexed_scanNumber h
      · exact absurd h (by simp)
      · exact absurd h (by simp)

/-! ### All tokens -/

theorem Lexer.isLexed_stream (limit : Nat) : ∀ {l : Lexer} {stream : TokenStream},
    l.stream limit = .ok stream → ∀ k ∈ stream.kinds, k.IsLexed := by
  induction limit with
  | zero =>
    intro l stream h
    obtain rfl := Except.ok.inj h
    simp [TokenStream.kinds]
  | succ limit ih =>
    intro l stream h
    rw [Lexer.stream] at h
    split at h
    case h_1 => exact absurd h (by simp)
    case h_2 token l' hnext =>
      split at h
      case isTrue =>
        obtain rfl := Except.ok.inj h
        simp [TokenStream.kinds]
      case isFalse hend =>
        cases hrest : l'.stream limit with
        | error e => rw [hrest] at h; exact absurd h (by simp [Except.map])
        | ok rest =>
          rw [hrest] at h
          obtain rfl := Except.ok.inj h
          -- The token is the one that has been scanned, and it is not the end.
          have htoken : token.kind.IsLexed := by
            rw [Lexer.next] at hnext
            split at hnext
            case h_1 kind cursor hscan =>
              obtain ⟨hkind, -⟩ := Prod.mk.inj hnext
              obtain rfl := Except.ok.inj hkind
              exact isLexed_scanKind hscan hend
            case h_2 => exact absurd hnext (by simp)
          intro k hk
          rcases List.mem_cons.1 hk with rfl | hk
          · exact htoken
          · exact ih hrest k hk

theorem isLexed_tokenize {text : String} {stream : TokenStream} (h : tokenize text = .ok stream) :
    ∀ k ∈ stream.kinds, k.IsLexed := Lexer.isLexed_stream _ h

theorem endOfInput_not_mem {text : String} {stream : TokenStream}
    (h : tokenize text = .ok stream) : TokenKind.endOfInput ∉ stream.kinds :=
  fun hmem => isLexed_tokenize h _ hmem

/-! ### Names -/

/-- Whether a text is read as the given tokens. -/
def readsAs (text : String) (kinds : List TokenKind) : Bool :=
  match tokenize text with
  | .ok stream => stream.kinds == kinds
  | .error _ => false

theorem readsAs_eq_true {text : String} {kinds : List TokenKind} :
    readsAs text kinds = true ↔ ∃ stream, tokenize text = .ok stream ∧ stream.kinds = kinds := by
  unfold readsAs
  cases tokenize text with
  | ok stream => simp
  | error e => simp

/-- Whether a text is read as one name that is no word of the language. -/
def isName (name : String) : Bool := readsAs name [.identifier name]

theorem isName_iff {name : String} : isName name = true ↔ IsName name := by
  rw [isName, readsAs_eq_true]
  constructor
  · rintro ⟨stream, hstream, hkinds⟩
    exact isLexed_tokenize hstream (.identifier name) (by rw [hkinds]; exact List.mem_cons_self)
  · intro h
    have hlexes : Lexes false name.toList [.identifier name] := by
      have hscans : Scans false (name.toList ++ []) (.identifier name) [] :=
        .name h (fun c hc => by simp at hc)
      rw [List.append_nil] at hscans
      exact .cons hscans (.nil _)
    exact hlexes.tokenize

end PathQuery
