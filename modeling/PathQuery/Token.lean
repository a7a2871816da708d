/-
Tokens of a query.

* **`Symbol`** — operators and punctuation, each with its spelling;
* **`TokenKind`** — what a token is, with the value of a literal or the name;
* **`Token`** — a kind and the place where it starts;
* **`TokenStream`** — the tokens of a text and the place where the text ends.
-/
import PathQuery.Number.Shortest
import PathQuery.Position

namespace PathQuery

/-- Operators and punctuation. -/
inductive Symbol where
  | dot
  | nullSafeDot
  | question
  | colon
  | coalesce
  | arrow
  | equal
  | identical
  | notEqual
  | notIdentical
  | less
  | greater
  | lessEqual
  | greaterEqual
  | plus
  | minus
  | star
  | slash
  | percent
  | and
  | or
  | leftParen
  | rightParen
  | leftBracket
  | rightBracket
  | comma
deriving DecidableEq, Repr, Inhabited

/-- How a symbol is written. -/
def Symbol.spelling : Symbol → String
  | .dot => "."
  | .nullSafeDot => "?."
  | .question => "?"
  | .colon => ":"
  | .coalesce => "??"
  | .arrow => "=>"
  | .equal => "=="
  | .identical => "==="
  | .notEqual => "!="
  | .notIdentical => "!=="
  | .less => "<"
  | .greater => ">"
  | .lessEqual => "<="
  | .greaterEqual => ">="
  | .plus => "+"
  | .minus => "-"
  | .star => "*"
  | .slash => "/"
  | .percent => "%"
  | .and => "&&"
  | .or => "||"
  | .leftParen => "("
  | .rightParen => ")"
  | .leftBracket => "["
  | .rightBracket => "]"
  | .comma => ","

/-- What a token is. -/
inductive TokenKind where
  | float (value : Binary64)
  | integer (value : Int64)
  | string (content : String)
  | boolean (value : Bool)
  | null
  | identifier (name : String)
  | symbol (symbol : Symbol)
  | endOfInput
deriving DecidableEq, Repr, Inhabited

namespace TokenKind

/-- How messages name a token. -/
def describe : TokenKind → String
  | .float value => "number " ++ value.text
  | .integer value => "number " ++ toString value.toInt
  | .string content => "string '" ++ content ++ "'"
  | .boolean value => if value then "'true'" else "'false'"
  | .null => "'null'"
  | .identifier name => "identifier '" ++ name ++ "'"
  | .symbol s => "'" ++ s.spelling ++ "'"
  | .endOfInput => "end of input"

/-- Whether a member name follows. -/
def isDot : TokenKind → Bool
  | .symbol .dot => true
  | .symbol .nullSafeDot => true
  | _ => false

end TokenKind

/-- A token and the place of its first character. -/
structure Token where
  kind : TokenKind
  position : Position
deriving DecidableEq, Repr, Inhabited

/-- The tokens of a text, without the one for its end, and the place of that end. -/
structure TokenStream where
  tokens : List Token
  stop : Position
deriving DecidableEq, Repr, Inhabited

namespace TokenStream

/-- The token at the front; at the end of the text that is the token for the end. -/
def peek (s : TokenStream) : Token := s.tokens.headD ⟨.endOfInput, s.stop⟩

/-- The stream behind its first token; the end stays where it is. -/
def tail (s : TokenStream) : TokenStream := { s with tokens := s.tokens.tail }

end TokenStream

end PathQuery
