/-
Queries that are nothing but a name.

* **`wordKind_eq_identifier_iff`** — the words that are kept apart are those that the lexer reads as
  something else than a name;
* **`isName_of_isBareName`** — so such a query is read as one name;
* **`parse_of_isBareName`** — it is parsed as the variable of that name.
-/
import PathQuery.Proofs.Expr.RoundTrip
import PathQuery.Session

namespace PathQuery

open Text

theorem toNat_of_isAlpha {c : Char} (h : c.isAlpha = true) :
    65 ≤ c.toNat ∧ c.toNat ≤ 90 ∨ 97 ≤ c.toNat ∧ c.toNat ≤ 122 := by
  rcases Bool.or_eq_true_iff.1 h with hupper | hlower
  · have hbounds : 'A'.val ≤ c.val ∧ c.val ≤ 'Z'.val := of_decide_eq_true hupper
    exact .inl ⟨UInt32.le_iff_toNat_le.1 hbounds.1, UInt32.le_iff_toNat_le.1 hbounds.2⟩
  · have hbounds := Bool.and_eq_true_iff.1 hlower
    exact .inr ⟨UInt32.le_iff_toNat_le.1 (of_decide_eq_true hbounds.1),
      UInt32.le_iff_toNat_le.1 (of_decide_eq_true hbounds.2)⟩

/-- The first two ranges of letters are those of ASCII. -/
theorem isLetter_of_isAlpha {c : Char} (h : c.isAlpha = true) : isLetter c = true := by
  have hrange := toNat_of_isAlpha h
  show inRanges c.toNat ((65, 90) :: (97, 122) :: _) = true
  rw [inRanges, inRanges]
  split_ifs <;> first | rfl | omega

theorem isNamePart_of_isAlphanum {c : Char} (h : (c.isAlphanum || c == '_') = true) :
    isNamePart c = true := by
  simp only [Char.isAlphanum, Bool.or_eq_true] at h
  obtain (halpha | hdigit) | hunderscore := h
  · rw [isNamePart, isLetter_of_isAlpha halpha]
    rfl
  · exact isNamePart_of_isDigit hdigit
  · rw [isNamePart, hunderscore, Bool.or_true]

/-- The lexer reads all words but those of the language as names. -/
theorem wordKind_eq_identifier_iff {word : String} :
    wordKind word = .identifier word ↔ isKeyword word = false := by
  simp only [isKeyword, List.any_cons, List.any_nil, Bool.or_false, Bool.or_eq_false_iff,
    beq_eq_false_iff_ne, wordKind]
  split_ifs <;> simp_all

/-- A bare name is a name. -/
theorem isName_of_isBareName {q : String} (h : isBareName q = true) : IsName q := by
  unfold isBareName at h
  split at h
  case h_1 => exact absurd h (by simp)
  case h_2 c rest hq =>
    simp only [Bool.and_eq_true, Bool.not_eq_true', List.all_eq_true] at h
    obtain ⟨⟨hstart, hparts⟩, hword⟩ := h
    have hname : isNameStart c = true := by
      rw [Bool.or_eq_true] at hstart
      rcases hstart with hc | hc
      · rw [isNameStart, isLetter_of_isAlpha hc, Bool.true_or]
      · rw [isNameStart, hc, Bool.or_true]
    refine ⟨⟨⟨c, by rw [hq]; rfl, hname⟩, ?_⟩, wordKind_eq_identifier_iff.2 hword⟩
    rw [hq]
    intro d hd
    rcases List.mem_cons.1 hd with rfl | hd
    · exact isNamePart_of_isNameStart hname
    · exact isNamePart_of_isAlphanum (hparts d hd)

/-- A name is parsed as a variable. -/
theorem parse_of_isName {q : String} (h : IsName q) : Expr.parse q = .ok (.variable q) := by
  have houtcome := Expr.parse_canonical (e := .variable q) (isName_iff.2 h) rfl
  change Parser.Outcome (Derivation.ofPrimary (.name q)).ofUnary (Expr.parse q) at houtcome
  have hnesting : (Derivation.ofPrimary (.name q)).ofUnary.nesting = 0 := rfl
  have hlinks : (Derivation.ofPrimary (.name q)).ofUnary.links = 0 := rfl
  exact houtcome.eq_ok ⟨by rw [hnesting]; decide, by rw [hlinks]; decide⟩

theorem parse_of_isBareName {q : String} (h : isBareName q = true) :
    Expr.parse q = .ok (.variable q) := parse_of_isName (isName_of_isBareName h)

end PathQuery
