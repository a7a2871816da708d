/-
From text to tokens.

A lexer holds the rest of the text, the place where it starts, and whether the last token was a
dot: a number right behind a dot is a member index and takes no fraction, so that `items.0.1` has
two steps.

* **`Lexer.next`** — one token or one error, and the lexer behind it; a lexer goes on after an
  error;
* **`tokenize`** — all tokens of a text, or its first error.

Design notes: each kind of token takes a stretch from the front of the rest (`takeWhile`, `drop`),
and places are counted over the stretch taken.
-/
import PathQuery.Number.Numeral
import PathQuery.Text.CharClass
import PathQuery.Token

namespace PathQuery

open Text

/-- What can be wrong with the text of a token. -/
inductive LexFault where
  | unexpectedCharacter (c : Char)
  | unknownOperator (c : Char)
  | unterminatedString
  | invalidEscape (c : Char)
  | invalidNumber (text : String)
deriving DecidableEq, Repr

/-- A fault and its place. -/
structure LexError where
  fault : LexFault
  position : Position
deriving DecidableEq, Repr

/-- The message for a fault at a place. -/
def LexFault.message (position : Position) : LexFault → String
  | .unexpectedCharacter c => "unexpected character '" ++ c.toString ++ "' at " ++ position.text
  | .unknownOperator c => "unknown operator '" ++ c.toString ++ "' at " ++ position.text
  | .unterminatedString => "unterminated string starting at " ++ position.text
  | .invalidEscape c => "invalid escape sequence '\\" ++ c.toString ++ "' at " ++ position.text
  | .invalidNumber text => "invalid number '" ++ text ++ "' at " ++ position.text

def LexError.message (e : LexError) : String := e.fault.message e.position

/-! ### The rest of a text -/

/-- The rest of a text and the place where it starts. -/
structure Cursor where
  rest : List Char
  position : Position
deriving DecidableEq, Repr

namespace Cursor

/-- The whole of a text. -/
def ofString (text : String) : Cursor := ⟨text.toList, .start⟩

/-- The rest behind the first `n` characters. -/
def drop (n : Nat) (c : Cursor) : Cursor := ⟨c.rest.drop n, c.position.afterAll (c.rest.take n)⟩

/-- The rest behind the characters of a class at the front. -/
def dropWhile (p : Char → Bool) (c : Cursor) : Cursor :=
  ⟨c.rest.dropWhile p, c.position.afterAll (c.rest.takeWhile p)⟩

end Cursor

/-! ### Tokens by kind -/

/-- Whether a text starts with a digit. -/
def startsWithDigit : List Char → Bool
  | c :: _ => c.isDigit
  | [] => false

/-- The longest symbol at the front and its length.  The dot of `?.5` belongs to the number, so
there the symbol is the question mark. -/
def symbolAt : List Char → Option (Symbol × Nat)
  | '.' :: _ => some (.dot, 1)
  | ',' :: _ => some (.comma, 1)
  | '+' :: _ => some (.plus, 1)
  | '-' :: _ => some (.minus, 1)
  | '*' :: _ => some (.star, 1)
  | '/' :: _ => some (.slash, 1)
  | '%' :: _ => some (.percent, 1)
  | ':' :: _ => some (.colon, 1)
  | '(' :: _ => some (.leftParen, 1)
  | ')' :: _ => some (.rightParen, 1)
  | '[' :: _ => some (.leftBracket, 1)
  | ']' :: _ => some (.rightBracket, 1)
  | '?' :: '?' :: _ => some (.coalesce, 2)
  | '?' :: '.' :: rest =>
    if startsWithDigit rest then some (.question, 1) else some (.nullSafeDot, 2)
  | '?' :: _ => some (.question, 1)
  | '=' :: '=' :: '=' :: _ => some (.identical, 3)
  | '=' :: '=' :: _ => some (.equal, 2)
  | '=' :: '>' :: _ => some (.arrow, 2)
  | '!' :: '=' :: '=' :: _ => some (.notIdentical, 3)
  | '!' :: '=' :: _ => some (.notEqual, 2)
  | '<' :: '=' :: _ => some (.lessEqual, 2)
  | '<' :: _ => some (.less, 1)
  | '>' :: '=' :: _ => some (.greaterEqual, 2)
  | '>' :: _ => some (.greater, 1)
  | '&' :: '&' :: _ => some (.and, 2)
  | '|' :: '|' :: _ => some (.or, 2)
  | _ => none

/-- The character that a backslash and `c` stand for. -/
def unescape (c : Char) : Option Char :=
  if c = 'n' then some '\n'
  else if c = 't' then some '\t'
  else if c = 'r' then some '\r'
  else if c = '"' ∨ c = '\'' ∨ c = '\\' then some c
  else none

/-- Reads the content of a string up to the closing quote; `rest` starts at `position`, behind the
quote that stands at `opened`. -/
def scanString (quote : Char) (opened : Position) :
    (rest : List Char) → (position : Position) → Except LexError (List Char) × Cursor
  | [], position => (.error ⟨.unterminatedString, opened⟩, ⟨[], position⟩)
  | c :: rest, position =>
    if c = quote then (.ok [], ⟨rest, position.after c⟩)
    else if c = '\\' then
      match rest with
      | [] => (.error ⟨.unterminatedString, opened⟩, ⟨[], position.after c⟩)
      | escaped :: rest =>
        match unescape escaped with
        | none => (.error ⟨.invalidEscape escaped, position⟩, ⟨escaped :: rest, position.after c⟩)
        | some plain =>
          let (content, cursor) := scanString quote opened rest ((position.after c).after escaped)
          (content.map (plain :: ·), cursor)
    else
      let (content, cursor) := scanString quote opened rest (position.after c)
      (content.map (c :: ·), cursor)

/-- The token that a name stands for: a word of the language, or itself. -/
def wordKind (name : String) : TokenKind :=
  if name = "AND" then .symbol .and
  else if name = "OR" then .symbol .or
  else if eqIgnoreCase name "true" then .boolean true
  else if eqIgnoreCase name "false" then .boolean false
  else if eqIgnoreCase name "null" then .null
  else .identifier name

/-- The digits of a fraction behind the whole digits of a number; none behind a dot. -/
def fractionDigits (afterDot : Bool) : List Char → List Char
  | '.' :: rest => if afterDot then [] else rest.takeWhile Char.isDigit
  | _ => []

/-- Reads the number at the front: an integer that fits 64 bits, or a fraction. -/
def scanNumber (afterDot : Bool) (c : Cursor) : Except LexError TokenKind × Cursor :=
  let whole := c.rest.takeWhile Char.isDigit
  let fraction := fractionDigits afterDot (c.rest.dropWhile Char.isDigit)
  if fraction = [] then
    match int64Of? (Nat.ofDigitChars 10 whole 0) with
    | some n => (.ok (.integer n), c.drop whole.length)
    | none =>
      (.error ⟨.invalidNumber (String.ofList whole), c.position⟩, c.drop whole.length)
  else
    let numeral : Numeral := ⟨Nat.ofDigitChars 10 (whole ++ fraction) 0, -fraction.length⟩
    (.ok (.float numeral.toBinary64), c.drop (whole.length + 1 + fraction.length))

/-- Reads the kind of the token at the front, which is not blank. -/
def scanKind (afterDot : Bool) (c : Cursor) : Except LexError TokenKind × Cursor :=
  match c.rest with
  | [] => (.ok .endOfInput, c)
  | first :: rest =>
    match symbolAt c.rest with
    | some (symbol, width) => (.ok (.symbol symbol), c.drop width)
    | none =>
      if first = '"' ∨ first = '\'' then
        let (content, cursor) := scanString first c.position rest (c.position.after first)
        (content.map fun cs => .string (String.ofList cs), cursor)
      else if isNameStart first then
        (.ok (wordKind (String.ofList (c.rest.takeWhile isNamePart))), c.dropWhile isNamePart)
      else if first.isDigit then scanNumber afterDot c
      else if isPunctuation first then (.error ⟨.unknownOperator first, c.position⟩, c)
      else (.error ⟨.unexpectedCharacter first, c.position⟩, c)

/-! ### The lexer -/

/-- The state between two tokens. -/
structure Lexer where
  cursor : Cursor
  afterDot : Bool
deriving DecidableEq, Repr

namespace Lexer

def ofString (text : String) : Lexer := ⟨.ofString text, false⟩

/-- Reads one token.  After an error the lexer stands where the error was noticed, and still knows
whether the last token was a dot. -/
def next (l : Lexer) : Except LexError Token × Lexer :=
  let start := l.cursor.dropWhile isBlank
  match scanKind l.afterDot start with
  | (.ok kind, cursor) => (.ok ⟨kind, start.position⟩, ⟨cursor, kind.isDot⟩)
  | (.error e, cursor) => (.error e, ⟨cursor, l.afterDot⟩)

/-- Reads tokens up to the end of the text.  Every token but the last takes a character, so a limit
above the length of the text is never reached. -/
def stream (l : Lexer) : (limit : Nat) → Except LexError TokenStream
  | 0 => .ok ⟨[], l.cursor.position⟩
  | limit + 1 =>
    match l.next with
    | (.error e, _) => .error e
    | (.ok token, l) =>
      if token.kind = .endOfInput then .ok ⟨[], token.position⟩
      else (l.stream limit).map fun s => { s with tokens := token :: s.tokens }

end Lexer

/-- All tokens of a text. -/
def tokenize (text : String) : Except LexError TokenStream :=
  (Lexer.ofString text).stream (text.toList.length + 1)

end PathQuery
