/-
Reading JSON text.

* **`Json.parse?`** — the document of a text, if it is one;
* **`Json.ofParts?`** — the float of a significand and a decimal exponent.

Design notes: arrays and objects nest at most `maxNesting` deep, which is what the reader recurses
on.  Loops are limited by the length of the text at hand.  A float is read by scaling its leading
nineteen or so digits with one power of ten, which may be off by a last place; the answers depend
on exactly that rule.
-/
import PathQuery.Json
import PathQuery.Number.Numeral

namespace PathQuery.Json

/-- How deep arrays and objects may nest. -/
def maxNesting : Nat := 127

/-- Blanks between the parts of a document. -/
def isSpace (c : Char) : Bool := c == ' ' || c == '\n' || c == '\t' || c == '\r'

/-- The rest of a text behind the blanks at its front. -/
def skipSpace (cs : List Char) : List Char := cs.dropWhile isSpace

/-! ### Numbers -/

/-- Divides by a power of ten, by `10 ^ 308` at a time; whatever is left after four rounds is
zero. -/
def divideByTenPow : (rounds : Nat) → Binary64 → (exponent : Nat) → Binary64
  | 0, x, _ => x
  | rounds + 1, x, exponent =>
    if exponent ≤ 308 then x / .powerOfTen exponent
    else if x.isZero then x
    else divideByTenPow rounds (x / .powerOfTen 308) (exponent - 308)

/-- The float `significand * 10 ^ exponent`; none if it is out of range. -/
def ofParts? (significand : Nat) (exponent : Int) : Option Binary64 :=
  let x := Binary64.ofNat significand
  if exponent < 0 then some (divideByTenPow 4 x (-exponent).toNat)
  else if x.isZero then some x
  else if exponent ≤ 308 then
    let scaled := x * .powerOfTen exponent.toNat
    if scaled.isFinite then some scaled else none
  else none

/-- Extends a significand by digits until it would leave 64 bits; gives the number of digits that
were taken. -/
def absorb (significand : Nat) : List Char → Nat × Nat
  | [] => (significand, 0)
  | c :: rest =>
    let extended := significand * 10 + (c.toNat - '0'.toNat)
    if extended < twoPow 64 then
      let (result, taken) := absorb extended rest
      (result, taken + 1)
    else (significand, 0)

/-- The fraction behind the whole digits: its digits, if there is a point. -/
def fraction? : List Char → Option (Option (List Char) × List Char)
  | '.' :: rest =>
    let digits := rest.takeWhile Char.isDigit
    if digits = [] then none else some (some digits, rest.dropWhile Char.isDigit)
  | rest => some (none, rest)

/-- The exponent behind the fraction, if there is one. -/
def exponent? : List Char → Option (Option Int × List Char)
  | c :: rest =>
    if c = 'e' ∨ c = 'E' then
      let signed := Signed.split rest
      let digits := signed.magnitude.takeWhile Char.isDigit
      (readNat? digits).map fun n =>
        (some (if signed.negative then -(n : Int) else n), signed.magnitude.dropWhile Char.isDigit)
    else some (none, c :: rest)
  | [] => some (none, [])

/-- A number without a fraction and an exponent. -/
def ofWhole? (negative : Bool) (digits : List Char) : Option Json :=
  let (significand, taken) := absorb 0 digits
  if taken = digits.length ∧ !negative then some (.integer significand)
  else if taken = digits.length ∧ 0 < significand ∧ significand ≤ twoPow 63 then
    some (.integer (-(significand : Int)))
  else
    (ofParts? significand (digits.length - taken : Nat)).map fun x =>
      .float (if negative then -x else x)

/-- A number with a fraction or an exponent. -/
def ofDigits? (negative : Bool) (whole fraction : List Char) (exponent : Int) : Option Json :=
  let (significand, taken) := absorb 0 whole
  let (significand, takenBehind) := absorb significand fraction
  let dropped : Nat := whole.length - taken
  (ofParts? significand (dropped - takenBehind + exponent)).map fun x =>
    .float (if negative then -x else x)

/-- Reads the number at the front. -/
def readNumber? (cs : List Char) : Option (Json × List Char) := do
  let (negative, cs) := match cs with
    | '-' :: rest => (true, rest)
    | _ => (false, cs)
  let whole := cs.takeWhile Char.isDigit
  if whole = [] ∨ (whole.head? = some '0' ∧ whole.length ≠ 1) then none
  let (fraction, rest) ← fraction? (cs.dropWhile Char.isDigit)
  let (exponent, rest) ← exponent? rest
  if fraction.isNone ∧ exponent.isNone then return (← ofWhole? negative whole, rest)
  return (← ofDigits? negative whole (fraction.getD []) (exponent.getD 0), rest)

/-! ### Strings -/

/-- The value of a hexadecimal digit. -/
def hexDigit? (c : Char) : Option Nat :=
  if '0' ≤ c ∧ c ≤ '9' then some (c.toNat - '0'.toNat)
  else if 'a' ≤ c ∧ c ≤ 'f' then some (c.toNat - 'a'.toNat + 10)
  else if 'A' ≤ c ∧ c ≤ 'F' then some (c.toNat - 'A'.toNat + 10)
  else none

/-- The number of four hexadecimal digits at the front. -/
def hex4? : List Char → Option (Nat × List Char)
  | a :: b :: c :: d :: rest => do
    let high := (← hexDigit? a) * 16 + (← hexDigit? b)
    let low := (← hexDigit? c) * 16 + (← hexDigit? d)
    return (high * 256 + low, rest)
  | _ => none

/-- The character of a numeric escape behind its `u`.  A code point beyond the first plane is two
escapes, a high and a low surrogate. -/
def numericEscape? (cs : List Char) : Option (Char × List Char) := do
  let (high, rest) ← hex4? cs
  if high < 0xD800 ∨ 0xDFFF < high then return (Char.ofNat high, rest)
  else if 0xDC00 ≤ high then none
  else
    match rest with
    | '\\' :: 'u' :: rest =>
      let (low, rest) ← hex4? rest
      if low < 0xDC00 ∨ 0xDFFF < low then none
      return (Char.ofNat (0x10000 + (high - 0xD800) * 0x400 + (low - 0xDC00)), rest)
    | _ => none

/-- The character of an escape behind its backslash. -/
def escape? : List Char → Option (Char × List Char)
  | '"' :: rest => some ('"', rest)
  | '\\' :: rest => some ('\\', rest)
  | '/' :: rest => some ('/', rest)
  | 'b' :: rest => some ('\x08', rest)
  | 'f' :: rest => some ('\x0c', rest)
  | 'n' :: rest => some ('\n', rest)
  | 'r' :: rest => some ('\r', rest)
  | 't' :: rest => some ('\t', rest)
  | 'u' :: rest => numericEscape? rest
  | _ => none

/-- Reads the content of a string up to its closing quote. -/
def readString? : (limit : Nat) → List Char → Option (List Char × List Char)
  | 0, _ => none
  | _ + 1, [] => none
  | limit + 1, c :: rest =>
    if c = '"' then some ([], rest)
    else if c = '\\' then do
      let (plain, rest) ← escape? rest
      let (content, rest) ← readString? limit rest
      return (plain :: content, rest)
    else if c.toNat < 0x20 then none
    else do
      let (content, rest) ← readString? limit rest
      return (c :: content, rest)

/-- Reads a string whose opening quote has been taken. -/
def string? (cs : List Char) : Option (String × List Char) :=
  (readString? (cs.length + 1) cs).map fun (content, rest) => (String.ofList content, rest)

/-! ### Arrays and objects -/

/-- What reads the values inside an array or object. -/
abbrev Reader := List Char → Option (Json × List Char)

/-- Reads the items of an array behind its opening bracket or a comma, at least one. -/
def readItems? (value : Reader) : (limit : Nat) → List Char → Option (List Json × List Char)
  | 0, _ => none
  | limit + 1, cs => do
    let (item, rest) ← value cs
    match skipSpace rest with
    | ',' :: rest =>
      let (items, rest) ← readItems? value limit rest
      return (item :: items, rest)
    | ']' :: rest => return ([item], rest)
    | _ => none

/-- Reads the members of an object behind its opening brace or a comma, at least one. -/
def readMembers? (value : Reader) :
    (limit : Nat) → List Char → Option (List (String × Json) × List Char)
  | 0, _ => none
  | limit + 1, cs => do
    match skipSpace cs with
    | '"' :: rest =>
      let (name, rest) ← string? rest
      match skipSpace rest with
      | ':' :: rest =>
        let (item, rest) ← value rest
        match skipSpace rest with
        | ',' :: rest =>
          let (members, rest) ← readMembers? value limit rest
          return ((name, item) :: members, rest)
        | '}' :: rest => return ([(name, item)], rest)
        | _ => none
      | _ => none
    | _ => none

/-- Reads an array behind its opening bracket. -/
def readArray? (value : Reader) (cs : List Char) : Option (Json × List Char) :=
  match skipSpace cs with
  | ']' :: rest => some (.array [], rest)
  | cs => (readItems? value (cs.length + 1) cs).map fun (items, rest) => (.array items, rest)

/-- Reads an object behind its opening brace. -/
def readObject? (value : Reader) (cs : List Char) : Option (Json × List Char) :=
  match skipSpace cs with
  | '}' :: rest => some (.object [], rest)
  | cs =>
    (readMembers? value (cs.length + 1) cs).map fun (members, rest) => (ofMembers members, rest)

/-! ### Documents -/

/-- Reads a value that is neither an array nor an object. -/
def readScalar? : List Char → Option (Json × List Char)
  | 'n' :: 'u' :: 'l' :: 'l' :: rest => some (.null, rest)
  | 't' :: 'r' :: 'u' :: 'e' :: rest => some (.boolean true, rest)
  | 'f' :: 'a' :: 'l' :: 's' :: 'e' :: rest => some (.boolean false, rest)
  | '"' :: rest => (string? rest).map fun (content, rest) => (.string content, rest)
  | cs => readNumber? cs

/-- Reads the value at the front; `levels` is the number of arrays and objects it may nest. -/
def readValue? : (levels : Nat) → Reader
  | levels, cs =>
    match skipSpace cs with
    | '[' :: rest =>
      match levels with
      | 0 => none
      | levels + 1 => readArray? (readValue? levels) rest
    | '{' :: rest =>
      match levels with
      | 0 => none
      | levels + 1 => readObject? (readValue? levels) rest
    | cs => readScalar? cs

/-- The document of a text. -/
def parse? (text : String) : Option Json := do
  let (json, rest) ← readValue? maxNesting text.toList
  if skipSpace rest = [] then return json else none

end PathQuery.Json
