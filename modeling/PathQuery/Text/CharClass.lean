/-
Character classes of the query language.

* **`isBlank`** — separates tokens: the Unicode property White_Space;
* **`isLetter`, `isNumeral`** — the properties behind names;
* **`isNameStart`, `isNamePart`** — the characters of a name;
* **`isPunctuation`** — ASCII punctuation.
-/
import PathQuery.Text.Ranges
import PathQuery.Text.Alphabetic
import PathQuery.Text.Numeric

namespace PathQuery.Text

/-- The ranges of the property White_Space. -/
def blankRanges : List (Nat × Nat) :=
  [(0x9, 0xD), (0x20, 0x20), (0x85, 0x85), (0xA0, 0xA0), (0x1680, 0x1680), (0x2000, 0x200A),
   (0x2028, 0x2029), (0x202F, 0x202F), (0x205F, 0x205F), (0x3000, 0x3000)]

/-- Characters that separate tokens and surround numbers in text. -/
def isBlank (c : Char) : Bool := inRanges c.toNat blankRanges

/-- Characters with the property Alphabetic. -/
def isLetter (c : Char) : Bool := inRanges c.toNat alphabeticRanges

/-- Characters of a number category. -/
def isNumeral (c : Char) : Bool := inRanges c.toNat numericRanges

/-- A name starts with a letter or an underscore. -/
def isNameStart (c : Char) : Bool := isLetter c || c == '_'

/-- A name goes on with letters, numerals and underscores. -/
def isNamePart (c : Char) : Bool := isLetter c || isNumeral c || c == '_'

/-- ASCII punctuation. -/
def isPunctuation (c : Char) : Bool :=
  inRanges c.toNat [(0x21, 0x2F), (0x3A, 0x40), (0x5B, 0x60), (0x7B, 0x7E)]

/-- Whether two words agree up to the case of ASCII letters. -/
def eqIgnoreCase (a b : String) : Bool :=
  a.toList.map Char.toLower == b.toList.map Char.toLower

/-- Text without the blanks at its ends. -/
def trim (cs : List Char) : List Char :=
  ((cs.dropWhile isBlank).reverse.dropWhile isBlank).reverse

end PathQuery.Text
