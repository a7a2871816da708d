/-
How numbers are read.

* **`Scans.digits`** — digits are read as an integer if it fits 64 bits, and `Scans.integer` for the
  digits that an integer is written with;
* **`Scans.float`** — digits with a point between them are read as the number nearest to them.
-/
import PathQuery.Proofs.Token.Lexes

namespace PathQuery

open Text

variable {afterDot : Bool} {rest : List Char}

/-! ### Digits -/

theorem toNat_of_isDigit {c : Char} (h : c.isDigit = true) :
    c.toNat ∈ [48, 49, 50, 51, 52, 53, 54, 55, 56, 57] := by
  simp only [Char.isDigit, Bool.and_eq_true, decide_eq_true_eq, ge_iff_le] at h
  have hlow : 48 ≤ c.toNat := h.1
  have hhigh : c.toNat ≤ 57 := h.2
  simp only [List.mem_cons, List.not_mem_nil, or_false]
  omega

theorem isBlank_of_isDigit {c : Char} (h : c.isDigit = true) : isBlank c = false := by
  have hdigits : ∀ n ∈ [48, 49, 50, 51, 52, 53, 54, 55, 56, 57],
      inRanges n blankRanges = false := by decide
  exact hdigits _ (toNat_of_isDigit h)

theorem isNameStart_of_isDigit {c : Char} (h : c.isDigit = true) : isNameStart c = false := by
  have hdigits : ∀ n ∈ [48, 49, 50, 51, 52, 53, 54, 55, 56, 57],
      inRanges n alphabeticRanges = false := by decide
  have hunderscore : (c == '_') = false := by
    refine beq_eq_false_iff_ne.2 ?_
    rintro rfl
    exact absurd h (by decide)
  rw [isNameStart, isLetter, hdigits _ (toNat_of_isDigit h), hunderscore]
  rfl

theorem isNamePart_of_isDigit {c : Char} (h : c.isDigit = true) : isNamePart c = true := by
  have hdigits : ∀ n ∈ [48, 49, 50, 51, 52, 53, 54, 55, 56, 57],
      inRanges n numericRanges = true := by decide
  rw [isNamePart, isNumeral, hdigits _ (toNat_of_isDigit h), Bool.or_true, Bool.true_or]

theorem StopsAt.isDigit (h : StopsAt isNamePart rest) : StopsAt Char.isDigit rest := by
  intro c hc
  by_contra hdigit
  have hpart := isNamePart_of_isDigit (c := c) (by simpa using hdigit)
  rw [h c hc] at hpart
  exact absurd hpart (by decide)

/-- A digit at the front starts a number. -/
theorem scanKind_of_isDigit {c : Char} (h : c.isDigit = true) (cs : List Char)
    (position : Position) :
    scanKind afterDot ⟨c :: cs, position⟩ = scanNumber afterDot ⟨c :: cs, position⟩ := by
  have hstart : c ∉ symbolStarts := by
    have hstarts : symbolStarts.all (fun d => !d.isDigit) = true := by decide
    intro hmem
    have hc : c.isDigit = false := by simpa using List.all_eq_true.1 hstarts c hmem
    rw [hc] at h
    exact absurd h (by decide)
  have hquote : ¬ (c = '"' ∨ c = '\'') := by
    rintro (rfl | rfl) <;> exact absurd h (by decide)
  simp only [scanKind, symbolAt_eq_none hstart, if_neg hquote, isNameStart_of_isDigit h, h]
  rfl

/-! ### Integers -/

theorem int64Of?_of_lt {n : Nat} (h : n < 2 ^ 63) : int64Of? n = some (Int64.ofInt n) := by
  rw [int64Of?, if_pos]
  have hpow : (twoPow 63 : Int) = 2 ^ 63 := rfl
  rw [hpow]
  omega

/-- Digits with nothing behind them that belongs to the number. -/
theorem Scans.digits {digits : List Char} {n : Int64} (hne : digits ≠ [])
    (hdigits : ∀ c ∈ digits, c.isDigit = true)
    (hn : int64Of? (Nat.ofDigitChars 10 digits 0) = some n) (hr : StopsAt Char.isDigit rest)
    (hfraction : fractionDigits afterDot rest = []) :
    Scans afterDot (digits ++ rest) (.integer n) rest := by
  obtain ⟨c, cs, hcs⟩ := List.exists_cons_of_ne_nil hne
  have hc : c.isDigit = true := hdigits c (by rw [hcs]; exact List.mem_cons_self)
  refine ⟨?_, fun position => ?_, by simp, ?_⟩
  · rw [hcs]
    exact dropWhile_isBlank (isBlank_of_isDigit hc) _
  · refine ⟨position.afterAll digits, ?_⟩
    rw [hcs, List.cons_append, scanKind_of_isDigit hc, ← List.cons_append, ← hcs, scanNumber]
    simp only [hr.takeWhile hdigits, hr.dropWhile hdigits, hfraction, if_true, Cursor.drop, hn,
      List.drop_left, List.take_left]
  · rw [List.length_append]
    have := List.length_pos_iff.2 hne
    omega

theorem Scans.integer {n : Nat} (hn : n < 2 ^ 63) (hr : StopsAt Char.isDigit rest)
    (hfraction : fractionDigits afterDot rest = []) :
    Scans afterDot (Nat.toDigits 10 n ++ rest) (.integer (Int64.ofInt n)) rest := by
  refine .digits Nat.toDigits_ne_nil (fun c hc => ?_) ?_ hr hfraction
  · exact Nat.isDigit_of_mem_toDigits (by decide) (by decide) hc
  · rw [Nat.ofDigitChars_ten_toDigits, int64Of?_of_lt hn]

/-! ### Floats -/

theorem Scans.float {whole fraction : List Char} (hw : whole ≠ [])
    (hwhole : ∀ c ∈ whole, c.isDigit = true) (hf : fraction ≠ [])
    (hfraction : ∀ c ∈ fraction, c.isDigit = true) (hr : StopsAt Char.isDigit rest) :
    Scans false (whole ++ '.' :: (fraction ++ rest))
      (.float (Numeral.toBinary64
        ⟨Nat.ofDigitChars 10 (whole ++ fraction) 0, -(fraction.length : Int)⟩)) rest := by
  obtain ⟨c, cs, hcs⟩ := List.exists_cons_of_ne_nil hw
  have hc : c.isDigit = true := hwhole c (by rw [hcs]; exact List.mem_cons_self)
  have hpoint : StopsAt Char.isDigit ('.' :: (fraction ++ rest)) := by
    intro d hd
    obtain rfl : '.' = d := by simpa using hd
    rfl
  refine ⟨?_, fun position => ?_, by simp, ?_⟩
  · rw [hcs]
    exact dropWhile_isBlank (isBlank_of_isDigit hc) _
  · refine ⟨position.afterAll (whole ++ '.' :: fraction), ?_⟩
    rw [hcs, List.cons_append, scanKind_of_isDigit hc, ← List.cons_append, ← hcs, scanNumber]
    -- The digits in front stop at the point, those behind it at `rest`.
    have hdigits : fractionDigits false ('.' :: (fraction ++ rest)) = fraction :=
      hr.takeWhile hfraction
    have hlength : whole.length + 1 + fraction.length = (whole ++ '.' :: fraction).length := by
      simp only [List.length_append, List.length_cons]
      omega
    have hsplit : whole ++ '.' :: (fraction ++ rest) = (whole ++ '.' :: fraction) ++ rest := by
      simp
    simp only [hpoint.takeWhile hwhole, hpoint.dropWhile hwhole, hdigits, if_neg hf, Cursor.drop]
    rw [hlength, hsplit, List.drop_left, List.take_left]
  · simp only [List.length_append, List.length_cons]
    omega

end PathQuery
