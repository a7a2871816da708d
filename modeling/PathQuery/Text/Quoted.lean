/-
Names in double quotes, for people to read.

* **`quoted`** — a name in quotes; control characters and characters without a glyph of their own
  are spelled out by name or by number.
-/
import PathQuery.Text.Escaped
import PathQuery.Text.Ranges

namespace PathQuery.Text

/-- How a character is written inside double quotes. -/
def quotedChar (c : Char) : List Char :=
  if c = '\x00' then ['\\', '0']
  else if c = '\t' then ['\\', 't']
  else if c = '\n' then ['\\', 'n']
  else if c = '\r' then ['\\', 'r']
  else if c = '\\' ∨ c = '"' then ['\\', c]
  else if inRanges c.toNat escapedRanges then
    ['\\', 'u', '{'] ++ Nat.toDigits 16 c.toNat ++ ['}']
  else [c]

/-- A name in double quotes. -/
def quoted (name : String) : String :=
  "\"" ++ String.ofList (name.toList.flatMap quotedChar) ++ "\""

end PathQuery.Text
