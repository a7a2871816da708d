/-
Numbers in queries and numbers in the texts of values.

Digits in a query are read by the lexer, digits in a text by `readNumber?` where it stands for a
number.  Both take the same digits (`DigitText`) for the same number, up to its size:

* **`DigitText.readNumber?_of_trim`** — a text of digits is read as their number if that is finite;
* **`exists_digitText_of_spelled`, `exists_tokenize_chars`** — the lexer reads digits as their
  number, finite or not, and nothing else as a number;
* **`DigitText.isFinite_number_iff`** — it is finite below `Binary64.overflow`;
* **`readNumber?_of_tokenize`** — so the two agree on the numbers that are finite;
* **`exists_infinite_token`** — but beyond them the lexer reads infinity, and `readNumber?` nothing.
-/
import Mathlib.Data.List.TakeWhile
import PathQuery.Proofs.Derivation
import PathQuery.Proofs.Number.Comparison
import PathQuery.Proofs.Number.Fits
import PathQuery.Proofs.Number.Overflow
import PathQuery.Proofs.Token.Spacing

namespace PathQuery

open Text Binary64

/-- A number without a sign, written in digits: those in front of the point and those behind it. -/
structure DigitText where
  whole : List Char
  fraction : List Char
  whole_ne : whole ≠ []
  isDigit_whole : ∀ c ∈ whole, c.isDigit = true
  isDigit_fraction : ∀ c ∈ fraction, c.isDigit = true

namespace DigitText

/-- What stands behind the whole digits: a point and a fraction, or nothing. -/
def point (d : DigitText) : List Char := if d.fraction = [] then [] else '.' :: d.fraction

/-- The characters of a number. -/
def chars (d : DigitText) : List Char := d.whole ++ d.point

/-- All digits, with the point left out. -/
def coefficient (d : DigitText) : Nat := Nat.ofDigitChars 10 (d.whole ++ d.fraction) 0

def numeral (d : DigitText) : Numeral := ⟨d.coefficient, -(d.fraction.length : Int)⟩

/-- The integer that the digits are, if there is no fraction and it fits 64 bits. -/
def integer? (d : DigitText) : Option Int64 :=
  if d.fraction = [] then int64Of? d.coefficient else none

/-- The number that the digits stand for: an integer where there is one, otherwise the nearest
float. -/
def number (d : DigitText) : Number :=
  match d.integer? with
  | some n => .integer n
  | none => .float d.numeral.toBinary64

variable (d : DigitText) {t : String}

/-! ### Characters -/

theorem mem_chars {c : Char} (hc : c ∈ d.chars) : c.isDigit = true ∨ c = '.' := by
  rw [chars, List.mem_append, point] at hc
  obtain hwhole | hpoint := hc
  · exact .inl (d.isDigit_whole c hwhole)
  · split at hpoint
    · exact absurd hpoint List.not_mem_nil
    · obtain rfl | hfraction := List.mem_cons.1 hpoint
      · exact .inr rfl
      · exact .inl (d.isDigit_fraction c hfraction)

theorem isNumberPart_of_mem {c : Char} (hc : c ∈ d.chars) : isNumberPart c = true := by
  obtain hdigit | rfl := d.mem_chars hc
  · simp [isNumberPart, hdigit]
  · rfl

theorem isBlank_of_mem {c : Char} (hc : c ∈ d.chars) : isBlank c = false := by
  obtain hdigit | rfl := d.mem_chars hc
  · exact isBlank_of_isDigit hdigit
  · decide

theorem exists_chars_eq_cons : ∃ c cs, d.chars = c :: cs ∧ c.isDigit = true := by
  obtain ⟨c, cs, hwhole⟩ := List.exists_cons_of_ne_nil d.whole_ne
  refine ⟨c, cs ++ d.point, ?_, d.isDigit_whole c ?_⟩
  · rw [chars, hwhole, List.cons_append]
  · rw [hwhole]
    exact List.mem_cons_self

theorem stopsAt_point : StopsAt Char.isDigit d.point := by
  intro c hc
  rw [point] at hc
  split at hc
  · exact absurd hc (by simp)
  · rw [← Option.some.inj hc]
    rfl

/-- Blanks around a number are taken off, and nothing of the number. -/
theorem trim_chars {gap gap' : List Char} (hgap : IsGap gap) (hgap' : IsGap gap') :
    trim (gap ++ (d.chars ++ gap')) = d.chars := by
  obtain ⟨c, cs, hchars, -⟩ := d.exists_chars_eq_cons
  have hfront : StopsAt isBlank (d.chars ++ gap') := by
    intro a ha
    rw [hchars] at ha
    refine d.isBlank_of_mem ?_
    rw [hchars, ← Option.some.inj ha]
    exact List.mem_cons_self
  have hback : StopsAt isBlank d.chars.reverse :=
    fun a ha => d.isBlank_of_mem (List.mem_reverse.1 (List.mem_of_mem_head? ha))
  have hreverse : ∀ a ∈ gap'.reverse, isBlank a = true :=
    fun a ha => hgap' a (List.mem_reverse.1 ha)
  rw [trim, hfront.dropWhile hgap, List.reverse_append, hback.dropWhile hreverse,
    List.reverse_reverse]

theorem trim_chars_self : trim d.chars = d.chars := by
  have hnil : IsGap [] := fun _ h => absurd h List.not_mem_nil
  have h := d.trim_chars hnil hnil
  rwa [List.nil_append, List.append_nil] at h

/-! ### Reading a text -/

theorem split_chars : Signed.split d.chars = ⟨false, d.chars⟩ := by
  obtain ⟨c, cs, hchars, hc⟩ := d.exists_chars_eq_cons
  rw [hchars, Signed.split]
  · rintro rest heq
    rw [(List.cons.inj heq).1] at hc
    exact absurd hc (by decide)
  · rintro rest heq
    rw [(List.cons.inj heq).1] at hc
    exact absurd hc (by decide)

theorem readNat?_chars :
    readNat? d.chars = if d.fraction = [] then some d.coefficient else none := by
  rw [readNat?, chars, point]
  by_cases hf : d.fraction = []
  · have hall : d.whole.all Char.isDigit = true := List.all_eq_true.2 d.isDigit_whole
    rw [if_pos hf, if_pos hf, List.append_nil, if_pos ⟨d.whole_ne, hall⟩, coefficient, hf,
      List.append_nil]
  · -- The point is no digit.
    rw [if_neg hf, if_neg hf, if_neg]
    rintro ⟨-, hall⟩
    exact absurd (List.all_eq_true.1 hall '.' (by simp)) (by decide)

theorem readInt?_chars :
    readInt? d.chars = if d.fraction = [] then some (d.coefficient : Int) else none := by
  rw [readInt?, split_chars]
  simp only [readNat?_chars]
  by_cases hf : d.fraction = []
  · rw [if_pos hf, if_pos hf]
    rfl
  · rw [if_neg hf, if_neg hf]
    rfl

theorem readInt64?_chars : readInt64? d.chars = d.integer? := by
  rw [readInt64?, readInt?_chars, integer?]
  by_cases hf : d.fraction = []
  · rw [if_pos hf, if_pos hf, Option.bind_some]
  · rw [if_neg hf, if_neg hf, Option.bind_none]

/-- The point and the fraction are taken as a whole. -/
theorem splitFraction_point : Numeral.splitFraction d.point = (d.fraction, []) := by
  rw [point]
  split
  case isTrue hf => rw [hf]; rfl
  case isFalse =>
    rw [Numeral.splitFraction, List.takeWhile_eq_self_iff.2 d.isDigit_fraction,
      List.dropWhile_eq_nil_iff.2 d.isDigit_fraction]

theorem readUnsigned?_chars : Numeral.readUnsigned? d.chars = some d.numeral := by
  have hne : d.whole ++ d.fraction ≠ [] := List.append_ne_nil_of_left_ne_nil d.whole_ne _
  rw [Numeral.readUnsigned?, chars, d.stopsAt_point.takeWhile d.isDigit_whole,
    d.stopsAt_point.dropWhile d.isDigit_whole, splitFraction_point]
  simp only [if_neg hne, Numeral.readExponent?, Option.map_some, Int.zero_sub]
  rfl

theorem readBinary64?_chars : readBinary64? d.chars = some d.numeral.toBinary64 := by
  rw [readBinary64?, Numeral.read?, split_chars, readUnsigned?_chars, Option.map_some,
    Option.map_some, Signed.toBinary64, if_neg Bool.false_ne_true]

/-- A text of digits is read as their number if that is finite, and otherwise not at all. -/
theorem readNumber?_of_trim (ht : trim t.toList = d.chars) :
    readNumber? t = if d.number.isFinite then some d.number else none := by
  have hall : d.chars.all isNumberPart = true :=
    List.all_eq_true.2 fun _ => d.isNumberPart_of_mem
  rw [readNumber?, ht, hall, readInt64?_chars, readBinary64?_chars, number]
  cases d.integer? with
  | some n => rfl
  | none => rfl

/-! ### Size -/

theorem isFinite_numeral_iff :
    d.numeral.toBinary64.isFinite = true ↔ d.coefficient < overflow * tenPow d.fraction.length := by
  have hneg : (- -(d.fraction.length : Int)).toNat = d.fraction.length := by omega
  have hzero : (-(d.fraction.length : Int)).toNat = 0 := by omega
  rw [Numeral.isFinite_toBinary64_iff, Ne, Numeral.toBinary64_eq_infinity_iff, numeral]
  simp only [hneg, hzero, tenPow_zero, Nat.mul_one, Nat.not_le]

theorem toInt_of_integer? {n : Int64} (h : d.integer? = some n) : n.toInt = d.coefficient := by
  rw [integer?] at h
  split at h
  · exact int64Of?_eq_some_iff.1 h
  · exact absurd h (by simp)

/-- A number is finite below half a step beyond the largest float, as integers of 64 bits are. -/
theorem isFinite_number_iff :
    d.number.isFinite = true ↔ d.coefficient < overflow * tenPow d.fraction.length := by
  rw [number]
  cases hn : d.integer? with
  | none => exact d.isFinite_numeral_iff
  | some n =>
    have hfits : d.coefficient < twoPow 63 := by
      have hnumber := d.toInt_of_integer? hn
      have hlt : n.toInt < 2 ^ 63 := n.toInt_lt
      have hpow : twoPow 63 = 2 ^ 63 := rfl
      omega
    have hoverflow : twoPow 63 ≤ overflow := Nat.le_trans (twoPow_le (by decide)) le_overflow
    exact iff_of_true rfl (Nat.lt_of_lt_of_le (Nat.lt_of_lt_of_le hfits hoverflow)
      (Nat.le_mul_of_pos_right _ (tenPow_pos _)))

/-- The only number that is not finite is infinity. -/
theorem number_eq_infinity (h : d.number.isFinite = false) :
    d.integer? = none ∧ d.number = .float infinity := by
  rw [number] at h ⊢
  cases hn : d.integer? with
  | some n => rw [hn] at h; exact absurd h.symm Bool.false_ne_true
  | none =>
    rw [hn] at h
    have hfinite : ¬ d.numeral.toBinary64.isFinite = true := Bool.eq_false_iff.1 h
    rw [Numeral.isFinite_toBinary64_iff, Classical.not_not] at hfinite
    exact ⟨rfl, congrArg Number.float hfinite⟩

end DigitText

/-! ### Reading a query -/

theorem wordKind_ne_number (name : String) (n : Number) :
    wordKind name ≠ (Literal.number n).token := by
  unfold wordKind
  cases n <;> split_ifs <;> exact TokenKind.noConfusion

/-- The lexer reads digits as their number, but without a fraction only if it fits 64 bits. -/
theorem exists_digitText_of_spelled {afterDot : Bool} {rest spelling : List Char} {n : Number}
    (h : Spelled afterDot rest (Literal.number n).token spelling) :
    ∃ d : DigitText, spelling = d.chars ∧ n = d.number ∧
      (d.fraction = [] → d.integer? ≠ none) := by
  generalize hk : (Literal.number n).token = kind at h
  cases h with
  | symbol => cases n <;> exact absurd hk TokenKind.noConfusion
  | word => exact absurd hk.symm (wordKind_ne_number _ n)
  | string => cases n <;> exact absurd hk TokenKind.noConfusion
  | @integer _ m hne hdigits hm =>
    cases n with
    | float x => exact absurd hk TokenKind.noConfusion
    | integer n =>
      obtain rfl : n = m := TokenKind.integer.inj hk
      have hn : (⟨spelling, [], hne, hdigits, by simp⟩ : DigitText).integer? = some n := by
        rw [DigitText.integer?, if_pos rfl, DigitText.coefficient, List.append_nil, hm]
      refine ⟨⟨spelling, [], hne, hdigits, by simp⟩, (List.append_nil spelling).symm, ?_, ?_⟩
      · rw [DigitText.number, hn]
      · rw [hn]
        exact fun _ => Option.some_ne_none n
  | @float whole fraction hdot hw hwhole hf hfraction =>
    cases n with
    | integer n => exact absurd hk TokenKind.noConfusion
    | float x =>
      obtain rfl := TokenKind.float.inj hk
      refine ⟨⟨whole, fraction, hw, hwhole, hfraction⟩, ?_, ?_, fun hnil => absurd hnil hf⟩
      · rw [DigitText.chars, DigitText.point, if_neg hf]
      · rw [DigitText.number, DigitText.integer?, if_neg hf]
        rfl

/-- Digits alone are read by the lexer as their number. -/
theorem exists_tokenize_chars (d : DigitText) (h : d.fraction = [] → d.integer? ≠ none) :
    ∃ stream, tokenize (String.ofList d.chars) = .ok stream ∧
      stream.kinds = [(Literal.number d.number).token] := by
  have hstops : StopsAt Char.isDigit [] := by simp [StopsAt]
  have hscans : Scans false (d.chars ++ []) (Literal.number d.number).token [] := by
    rw [DigitText.chars, DigitText.point, DigitText.number]
    by_cases hf : d.fraction = []
    · obtain ⟨n, hn⟩ := Option.ne_none_iff_exists'.1 (h hf)
      have hfits : int64Of? (Nat.ofDigitChars 10 d.whole 0) = some n := by
        rw [DigitText.integer?, if_pos hf, DigitText.coefficient, hf, List.append_nil] at hn
        exact hn
      rw [if_pos hf, List.append_nil, hn]
      exact .digits d.whole_ne d.isDigit_whole hfits hstops rfl
    · have hnone : d.integer? = none := if_neg hf
      rw [if_neg hf, hnone, List.append_assoc]
      exact .float d.whole_ne d.isDigit_whole hf d.isDigit_fraction hstops
  refine Lexes.tokenize ?_
  rw [String.toList_ofList, ← List.append_nil d.chars]
  exact .cons hscans (.nil _)

/-- A text with one token is its spelling, with blanks around it. -/
theorem exists_spelled_of_tokenize {t : String} {stream : TokenStream} {kind : TokenKind}
    (ht : tokenize t = .ok stream) (hk : stream.kinds = [kind]) :
    ∃ gap spelling gap', t.toList = gap ++ (spelling ++ gap') ∧ IsGap gap ∧ IsGap gap' ∧
      Spelled false [] kind spelling := by
  obtain ⟨gap, spellings, htext, hgap, hrow, -⟩ := exists_spread_of_tokenize ht
  rw [hk] at hrow
  cases hrow with
  | cons hs hr =>
    cases hr with
    | nil => exact ⟨gap 0, _, gap 1, htext, hgap 0, hgap 1, hs⟩

/-- A text that the lexer reads as one number is digits with blanks around them.  As the text of a
value it is read as the same number if that is finite, which it is below `overflow`; what the lexer
reads from there on is infinity, and only with a fraction, and the text of a value is no number. -/
theorem readNumber?_of_tokenize {t : String} {stream : TokenStream} {n : Number}
    (ht : tokenize t = .ok stream) (hn : stream.kinds = [(Literal.number n).token]) :
    ∃ d : DigitText, trim t.toList = d.chars ∧ n = d.number ∧
      readNumber? t = (if n.isFinite then some n else none) ∧
      (n.isFinite = true ↔ d.coefficient < overflow * tenPow d.fraction.length) ∧
      (n.isFinite = false → d.fraction ≠ [] ∧ n = .float infinity) := by
  obtain ⟨gap, spelling, gap', htext, hgap, hgap', hs⟩ := exists_spelled_of_tokenize ht hn
  obtain ⟨d, rfl, rfl, hfits⟩ := exists_digitText_of_spelled hs
  have htrim : trim t.toList = d.chars := by
    rw [htext]
    exact d.trim_chars hgap hgap'
  refine ⟨d, htrim, rfl, d.readNumber?_of_trim htrim, d.isFinite_number_iff, fun hinfinite => ?_⟩
  obtain ⟨hnone, hinfinity⟩ := d.number_eq_infinity hinfinite
  exact ⟨fun hf => hfits hf hnone, hinfinity⟩

/-- Zeros in front and blanks around a number change nothing. -/
theorem readNumber?_of_tokenize_padded :
    ∃ stream, tokenize " 0012.50 " = .ok stream ∧
      stream.kinds = [(Literal.number (.float (Numeral.toBinary64 ⟨125, -1⟩))).token] ∧
      readNumber? " 0012.50 " = some (.float (Numeral.toBinary64 ⟨125, -1⟩)) := by
  have hreads : readsAs " 0012.50 "
      [(Literal.number (.float (Numeral.toBinary64 ⟨125, -1⟩))).token] = true := by decide +kernel
  obtain ⟨stream, hstream, hkinds⟩ := readsAs_eq_true.1 hreads
  obtain ⟨-, -, -, hread, -, -⟩ := readNumber?_of_tokenize hstream hkinds
  have hfinite : (Number.float (Numeral.toBinary64 ⟨125, -1⟩)).isFinite = true := by decide +kernel
  exact ⟨stream, hstream, hkinds, by rw [hread, if_pos hfinite]⟩

/-- Ten to the power 309, with a point: more than the largest float. -/
def DigitText.huge : DigitText where
  whole := ['1'] ++ List.replicate 309 '0'
  fraction := ['0']
  whole_ne := List.cons_ne_nil _ _
  isDigit_whole := Numeral.isDigit_append (by simp) (Numeral.isDigit_replicate 309)
  isDigit_fraction := by simp

/-- The lexer reads as infinity what is no number as the text of a value. -/
theorem exists_infinite_token :
    ∃ stream, tokenize (String.ofList DigitText.huge.chars) = .ok stream ∧
      stream.kinds = [(Literal.number (.float infinity)).token] ∧
      readNumber? (String.ofList DigitText.huge.chars) = none := by
  have hinfinite : DigitText.huge.number.isFinite = false := by
    rw [← Bool.not_eq_true, DigitText.isFinite_number_iff]
    decide +kernel
  obtain ⟨stream, hstream, hkinds⟩ :=
    exists_tokenize_chars DigitText.huge fun hf => absurd hf (List.cons_ne_nil _ _)
  have htrim : trim (String.ofList DigitText.huge.chars).toList = DigitText.huge.chars := by
    rw [String.toList_ofList, DigitText.trim_chars_self]
  refine ⟨stream, hstream, ?_, ?_⟩
  · rw [hkinds, (DigitText.huge.number_eq_infinity hinfinite).2]
  · rw [DigitText.huge.readNumber?_of_trim htrim, hinfinite, if_neg Bool.false_ne_true]

end PathQuery
