/-
Writing JSON text.

* **`Json.compact`** — a document without blanks;
* **`Json.pretty`** — a document with one item to a line, two blanks deeper for each level;
* **`Json.floatText`** — a float with the fewest digits that read back.
-/
import PathQuery.Json
import PathQuery.Number.Shortest

namespace PathQuery.Json

/-! ### Scalars -/

/-- Two lower-case hexadecimal digits. -/
def hexPair (n : Nat) : List Char := [Nat.digitChar (n / 16), Nat.digitChar (n % 16)]

/-- How a character is written in a string. -/
def escapeChar (c : Char) : List Char :=
  if c = '"' ∨ c = '\\' then ['\\', c]
  else if c = '\x08' then ['\\', 'b']
  else if c = '\t' then ['\\', 't']
  else if c = '\n' then ['\\', 'n']
  else if c = '\x0c' then ['\\', 'f']
  else if c = '\r' then ['\\', 'r']
  else if c.toNat < 0x20 then ['\\', 'u', '0', '0'] ++ hexPair c.toNat
  else [c]

def quote (s : String) : String := "\"" ++ String.ofList (s.toList.flatMap escapeChar) ++ "\""

/-- The digits of a numeral written with a point: positionally if the leading digit stands at most
sixteen places before the point and at most five behind it, otherwise with an exponent. -/
def floatDigits (n : Numeral) : List Char :=
  if -5 < n.wholeDigits ∧ n.wholeDigits ≤ 16 then
    if 0 ≤ n.exponent then n.positional ++ ['.', '0'] else n.positional
  else
    let exponent := n.wholeDigits - 1
    let mark := 'e' :: (if exponent < 0 then '-' else '+') :: Nat.toDigits 10 exponent.natAbs
    match n.digits with
    | [] => mark
    | [digit] => digit :: mark
    | digit :: rest => digit :: '.' :: (rest ++ mark)

/-- The text of a finite float. -/
def floatText (x : Binary64) : String :=
  let magnitude := String.ofList (floatDigits (x.shortest .even))
  if x.isNegative then "-" ++ magnitude else magnitude

/-- The text of a value without members. -/
def scalarText : Json → String
  | .null => "null"
  | .boolean b => if b then "true" else "false"
  | .integer n => toString n
  | .float x => floatText x
  | .string s => quote s
  | .array _ => "[]"
  | .object _ => "\x7b\x7d"

/-! ### Compact text -/

mutual

/-- The text without blanks. -/
def compact : Json → String
  | .array items => "[" ++ compactItems items ++ "]"
  | .object members => "\x7b" ++ compactMembers members ++ "\x7d"
  | scalar => scalarText scalar

def compactItems : List Json → String
  | [] => ""
  | [item] => compact item
  | item :: rest => compact item ++ "," ++ compactItems rest

def compactMembers : List (String × Json) → String
  | [] => ""
  | [(name, value)] => quote name ++ ":" ++ compact value
  | (name, value) :: rest => quote name ++ ":" ++ compact value ++ "," ++ compactMembers rest

end

/-! ### Text for people -/

/-- The start of a line at a level. -/
def newLine (level : Nat) : String := "\n" ++ String.ofList (List.replicate (2 * level) ' ')

mutual

/-- The text of a document whose lines are `level` levels deep. -/
def prettyAt (level : Nat) : Json → String
  | .array [] => "[]"
  | .array items => "[" ++ prettyItems (level + 1) items ++ newLine level ++ "]"
  | .object [] => "\x7b\x7d"
  | .object members => "\x7b" ++ prettyMembers (level + 1) members ++ newLine level ++ "\x7d"
  | scalar => scalarText scalar

def prettyItems (level : Nat) : List Json → String
  | [] => ""
  | [item] => newLine level ++ prettyAt level item
  | item :: rest => newLine level ++ prettyAt level item ++ "," ++ prettyItems level rest

def prettyMembers (level : Nat) : List (String × Json) → String
  | [] => ""
  | [(name, value)] => newLine level ++ quote name ++ ": " ++ prettyAt level value
  | (name, value) :: rest =>
    newLine level ++ quote name ++ ": " ++ prettyAt level value ++ "," ++ prettyMembers level rest

end

/-- The text with one item to a line. -/
def pretty (j : Json) : String := prettyAt 0 j

end PathQuery.Json
