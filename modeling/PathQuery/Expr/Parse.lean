/-
From tokens to expressions.

The grammar, from the loosest binding to the tightest; binary levels group to the left, conditionals
and closures reach as far to the right as they can:

    expression     := coalesce ("?" ":" expression | "?" expression ":" expression)?
    coalesce       := or ("??" or)*
    or             := and (("||" | "OR") and)*
    and            := comparison (("&&" | "AND") comparison)*
    comparison     := additive (("==" | "===" | "!=" | "!==" | "<" | "<=" | ">" | ">=") additive)*
    additive       := multiplicative (("+" | "-") multiplicative)*
    multiplicative := unary (("*" | "/" | "%") unary)*
    unary          := "-" unary | path
    path           := primary (("." | "?.") member ("(" list ")")?)*
    primary        := literal | name | name "(" list ")" | "(" expression ")" | "[" list "]"
                    | "fn"? "(" names ")" "=>" expression

* **`Expr.parse`** — the expression of a text;
* **`Parser.expression`, `Parser.query`** — one expression from the tokens at hand, and one that
  ends them; a parser goes on after an error.

Design notes: expressions nest at most `maxNesting` deep and paths chain at most `maxChain` links.
`Nested` holds the two productions one level further down, and `nestedAt` ties the knot by
recursion on the levels left, so every production is an ordinary function.  Chains are limited by
`maxChain`, since each round is a link; lists by the number of tokens at hand, since each round
takes one.
-/
import PathQuery.Expr
import PathQuery.Token.Scan

namespace PathQuery

/-! ### Errors -/

/-- The two pairs of delimiters. -/
inductive Delimiter where
  | parenthesis
  | bracket
deriving DecidableEq, Repr, Inhabited

namespace Delimiter

def opener : Delimiter → Symbol
  | .parenthesis => .leftParen
  | .bracket => .leftBracket

def closer : Delimiter → Symbol
  | .parenthesis => .rightParen
  | .bracket => .rightBracket

end Delimiter

/-- What the grammar asks for at some place. -/
inductive Expected where
  | expression
  | operatorOrEnd
  | ternaryColon
  | memberName
  | separatorOr (closing : Delimiter)
  | closing (closing : Delimiter)
  | parameterName
  | parameterSeparator
  | arrow
deriving DecidableEq, Repr, Inhabited

/-- How messages name what is expected. -/
def Expected.text : Expected → String
  | .expression => "expression"
  | .operatorOrEnd => "an operator or end of input"
  | .ternaryColon => "':' in ternary"
  | .memberName => "member name after '.'"
  | .separatorOr d => "',' or " ++ (TokenKind.symbol d.closer).describe
  | .closing d => (TokenKind.symbol d.closer).describe
  | .parameterName => "parameter name"
  | .parameterSeparator => "',' or ')' after parameter"
  | .arrow => "'=>' after closure parameters"

/-- What can be wrong with a query. -/
inductive ParseFault where
  | lexical (fault : LexFault)
  | unexpectedToken (expected : Expected) (found : TokenKind)
  | unexpectedEnd (expected : Expected)
  | unclosed (delimiter : Delimiter)
  | unbalanced (delimiter : Delimiter)
  | tooDeep (limit : Nat)
deriving DecidableEq, Repr

/-- A fault and its place. -/
structure ParseError where
  fault : ParseFault
  position : Position
deriving DecidableEq, Repr

def LexError.toParseError (e : LexError) : ParseError := ⟨.lexical e.fault, e.position⟩

/-- The message for a fault at a place. -/
def ParseFault.message (position : Position) : ParseFault → String
  | .lexical fault => fault.message position
  | .unexpectedToken expected found =>
    "expected " ++ expected.text ++ ", found " ++ found.describe ++ " at " ++ position.text
  | .unexpectedEnd expected =>
    "expected " ++ expected.text ++ ", found end of input at " ++ position.text
  | .unclosed d => "unclosed '" ++ d.opener.spelling ++ "' opened at " ++ position.text
  | .unbalanced d => "unbalanced '" ++ d.closer.spelling ++ "' at " ++ position.text
  | .tooDeep limit =>
    "expression nested deeper than " ++ toString limit ++ " levels at " ++ position.text

def ParseError.message (e : ParseError) : String := e.fault.message e.position

/-! ### The state of a parser -/

/-- How deep expressions nest at most: groups, lists, arguments, closure bodies, branches of
conditionals and minus signs. -/
def maxNesting : Nat := 64

/-- How many operators and member steps chain at most along one path. -/
def maxChain : Nat := 256

/-- The tokens at hand and the number of links on the path to the place at hand. -/
structure ParserState where
  stream : TokenStream
  links : Nat
deriving DecidableEq, Repr

abbrev Parser (α : Type) := ExceptT ParseError (StateM ParserState) α

namespace Parser

/-- The token at the front, which stays there. -/
def peek : Parser Token := do return (← get).stream.peek

/-- Takes the token at the front; the one for the end stays. -/
def advance : Parser Token := do
  let token ← peek
  modify fun s => { s with stream := s.stream.tail }
  return token

/-- The number of tokens at hand. -/
def remaining : Parser Nat := do return (← get).stream.tokens.length

/-- Whether the token at the front is the given symbol. -/
def isNext (symbol : Symbol) : Parser Bool := do return (← peek).kind == .symbol symbol

/-- Complains about a token. -/
def unexpectedAt (token : Token) (expected : Expected) : Parser α :=
  throw ⟨if token.kind = .endOfInput then .unexpectedEnd expected
    else .unexpectedToken expected token.kind, token.position⟩

/-- Complains about the token at the front. -/
def unexpected (expected : Expected) : Parser α := do unexpectedAt (← peek) expected

/-- Takes the given symbol or complains. -/
def expect (symbol : Symbol) (expected : Expected) : Parser Unit := do
  if ← isNext symbol then discard advance else unexpected expected

/-- Counts a link on the path at hand. -/
def link : Parser Unit := do
  let s ← get
  if maxChain ≤ s.links then throw ⟨.tooDeep maxChain, s.stream.peek.position⟩
  set { s with links := s.links + 1 }

/-! ### Productions -/

/-- The productions that nest, one level further down. -/
structure Nested where
  expression : Parser Expr
  unary : Parser Expr

/-- The rounds of a chain: an operator, its right operand, and the two joined. -/
def chainRest (operator : TokenKind → Option (Expr → Expr → Expr)) (operand : Parser Expr) :
    (limit : Nat) → (left : Expr) → Parser Expr
  | 0, left => return left
  | limit + 1, left => do
    match operator (← peek).kind with
    | none => return left
    | some join =>
      link
      discard advance
      let right ← operand
      chainRest operator operand limit (join left right)

/-- Operands with operators between them, grouped to the left.  The links of the chain are
forgotten where it ends. -/
def chain (operator : TokenKind → Option (Expr → Expr → Expr)) (operand : Parser Expr) :
    Parser Expr := do
  let first ← operand
  let links := (← get).links
  let result ← chainRest operator operand (maxChain + 1) first
  modify fun s => { s with links := links }
  return result

/-- Expressions with commas between them up to the closing delimiter, which is taken; a comma may
precede it.  The opening delimiter stands at `opened`. -/
def items (expression : Parser Expr) (delimiter : Delimiter) (opened : Position) :
    (limit : Nat) → Parser (List Expr)
  | 0 => throw ⟨.unclosed delimiter, opened⟩
  | limit + 1 => do
    let token ← peek
    if token.kind = .symbol delimiter.closer then
      discard advance
      return []
    else if token.kind = .endOfInput then throw ⟨.unclosed delimiter, opened⟩
    else
      let first ← expression
      let token ← peek
      if token.kind = .symbol .comma then discard advance
      else if token.kind = .symbol delimiter.closer then pure ()
      else if token.kind = .endOfInput then throw ⟨.unclosed delimiter, opened⟩
      else unexpected (.separatorOr delimiter)
      let rest ← items expression delimiter opened limit
      return first :: rest

/-- The items behind an opening delimiter. -/
def list (nested : Nested) (delimiter : Delimiter) (opened : Position) : Parser (List Expr) := do
  items nested.expression delimiter opened (← remaining)

/-- Takes the closing delimiter. -/
def close (delimiter : Delimiter) (opened : Position) : Parser Unit := do
  let token ← peek
  if token.kind = .symbol delimiter.closer then discard advance
  else if token.kind = .endOfInput then throw ⟨.unclosed delimiter, opened⟩
  else unexpected (.closing delimiter)

/-- Whether the parenthesis opened just before the tokens is closed right in front of an arrow;
`depth` counts the ones opened since. -/
def arrowBehindClose : (depth : Nat) → List Token → Bool
  | _, [] => false
  | depth, token :: rest =>
    if token.kind = .symbol .leftParen then arrowBehindClose (depth + 1) rest
    else if token.kind = .symbol .rightParen then
      match depth with
      | 0 => rest.head?.any (·.kind == .symbol .arrow)
      | depth + 1 => arrowBehindClose depth rest
    else arrowBehindClose depth rest

/-- Parameter names with commas between them; the closing parenthesis stays. -/
def parameters : (limit : Nat) → Parser (List String)
  | 0 => unexpected .parameterName
  | limit + 1 => do
    if ← isNext .rightParen then return []
    match (← peek).kind with
    | .identifier name =>
      discard advance
      if !(← isNext .rightParen) then expect .comma .parameterSeparator
      let rest ← parameters limit
      return name :: rest
    | _ => unexpected .parameterName

/-- The closure whose parenthesis, opened at `opened`, has been taken. -/
def closure (nested : Nested) (opened : Position) : Parser Expr := do
  let params ← parameters (← remaining)
  close .parenthesis opened
  expect .arrow .arrow
  let body ← nested.expression
  return .closure params body

def primary (nested : Nested) : Parser Expr := do
  let token ← advance
  match token.kind with
  | .integer n => return .literal (.number (.integer n))
  | .float x => return .literal (.number (.float x))
  | .string s => return .literal (.string s)
  | .boolean b => return .literal (.boolean b)
  | .null => return .literal .null
  | .identifier name =>
    if !(← isNext .leftParen) then return .variable name
    let opened := (← advance).position
    if name = "fn" && arrowBehindClose 0 (← get).stream.tokens then closure nested opened
    else return .call name (← list nested .parenthesis opened)
  | .symbol .leftParen =>
    if arrowBehindClose 0 (← get).stream.tokens then closure nested token.position
    else
      let inner ← nested.expression
      close .parenthesis token.position
      return inner
  | .symbol .leftBracket => return .list (← list nested .bracket token.position)
  | .symbol .rightParen => throw ⟨.unbalanced .parenthesis, token.position⟩
  | .symbol .rightBracket => throw ⟨.unbalanced .bracket, token.position⟩
  | _ => unexpectedAt token .expression

/-- The name of a member: an identifier or an index. -/
def memberName : Parser String := do
  match (← peek).kind with
  | .identifier name =>
    discard advance
    return name
  | .integer n =>
    if n < 0 then unexpected .memberName
    discard advance
    return toString n.toInt
  | _ => unexpected .memberName

/-- The member steps behind an object.  From the first null-safe step on, all are null-safe. -/
def members (nested : Nested) : (limit : Nat) → (object : Expr) → (nullSafe : Bool) → Parser Expr
  | 0, object, _ => return object
  | limit + 1, object, nullSafe => do
    let kind := (← peek).kind
    if !kind.isDot then return object
    let nullSafe := nullSafe || kind == .symbol .nullSafeDot
    link
    discard advance
    let name ← memberName
    if ← isNext .leftParen then
      let opened := (← advance).position
      let arguments ← list nested .parenthesis opened
      members nested limit (.memberCall object name arguments nullSafe) nullSafe
    else members nested limit (.member object name nullSafe) nullSafe

/-- A primary expression and the member steps behind it. -/
def path (nested : Nested) : Parser Expr := do
  let object ← primary nested
  let links := (← get).links
  let result ← members nested (maxChain + 1) object false
  modify fun s => { s with links := links }
  return result

/-- The negative of an operand: a literal number changes its sign, anything else is taken from
zero. -/
def negate : Expr → Expr
  | .literal (.number (.integer n)) => .literal (.number (.integer (-n)))
  | .literal (.number (.float x)) => .literal (.number (.float (-x)))
  | operand => .arithmetic .subtract (.literal (.number (.integer 0))) operand

def unary (nested : Nested) : Parser Expr := do
  if ← isNext .minus then
    discard advance
    return negate (← nested.unary)
  else path nested

def multiplicativeOperator : TokenKind → Option (Expr → Expr → Expr)
  | .symbol .star => some (.arithmetic .multiply)
  | .symbol .slash => some (.arithmetic .divide)
  | .symbol .percent => some (.arithmetic .modulo)
  | _ => none

def additiveOperator : TokenKind → Option (Expr → Expr → Expr)
  | .symbol .plus => some (.arithmetic .add)
  | .symbol .minus => some (.arithmetic .subtract)
  | _ => none

def comparisonOperator : TokenKind → Option (Expr → Expr → Expr)
  | .symbol .equal => some (.comparison .equal)
  | .symbol .identical => some (.comparison .identical)
  | .symbol .notEqual => some (.comparison .notEqual)
  | .symbol .notIdentical => some (.comparison .notIdentical)
  | .symbol .less => some (.comparison .less)
  | .symbol .lessEqual => some (.comparison .lessEqual)
  | .symbol .greater => some (.comparison .greater)
  | .symbol .greaterEqual => some (.comparison .greaterEqual)
  | _ => none

def andOperator : TokenKind → Option (Expr → Expr → Expr)
  | .symbol .and => some (.logical .and)
  | _ => none

def orOperator : TokenKind → Option (Expr → Expr → Expr)
  | .symbol .or => some (.logical .or)
  | _ => none

def coalesceOperator : TokenKind → Option (Expr → Expr → Expr)
  | .symbol .coalesce => some .coalesce
  | _ => none

def multiplicative (nested : Nested) : Parser Expr := chain multiplicativeOperator (unary nested)

def additive (nested : Nested) : Parser Expr := chain additiveOperator (multiplicative nested)

def comparison (nested : Nested) : Parser Expr := chain comparisonOperator (additive nested)

def conjunction (nested : Nested) : Parser Expr := chain andOperator (comparison nested)

def disjunction (nested : Nested) : Parser Expr := chain orOperator (conjunction nested)

def coalesce (nested : Nested) : Parser Expr := chain coalesceOperator (disjunction nested)

/-- A conditional, or just its condition. -/
def conditional (nested : Nested) : Parser Expr := do
  let condition ← coalesce nested
  if !(← isNext .question) then return condition
  discard advance
  if ← isNext .colon then
    discard advance
    return .elvis condition (← nested.expression)
  else
    let whenTrue ← nested.expression
    expect .colon .ternaryColon
    return .ternary condition whenTrue (← nested.expression)

/-! ### Nesting -/

/-- Complains that the levels are used up. -/
def tooDeep : Parser α := do throw ⟨.tooDeep maxNesting, (← peek).position⟩

/-- The productions that nest, with `levels` levels left. -/
def nestedAt : (levels : Nat) → Nested
  | 0 => ⟨tooDeep, tooDeep⟩
  | levels + 1 => ⟨conditional (nestedAt levels), unary (nestedAt levels)⟩

/-- One expression; tokens behind it stay. -/
def expression : Parser Expr := (nestedAt maxNesting).expression

/-- One expression that ends the tokens. -/
def query : Parser Expr := do
  let result ← expression
  let token ← peek
  match token.kind with
  | .endOfInput => return result
  | .symbol .rightParen => throw ⟨.unbalanced .parenthesis, token.position⟩
  | .symbol .rightBracket => throw ⟨.unbalanced .bracket, token.position⟩
  | _ => unexpected .operatorOrEnd

/-- The state in front of the tokens of a text. -/
def start (text : String) : Except ParseError ParserState :=
  match tokenize text with
  | .ok stream => .ok ⟨stream, 0⟩
  | .error e => .error e.toParseError

/-- Runs a production; the state is that behind it, also after an error. -/
def runOn (p : Parser α) (s : ParserState) : Except ParseError α × ParserState := (p.run).run s

end Parser

/-- The expression of a text. -/
def Expr.parse (text : String) : Except ParseError Expr := do
  let s ← Parser.start text
  (Parser.query.runOn s).1

end PathQuery
