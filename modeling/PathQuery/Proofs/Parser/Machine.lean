/-
The parser on a fixed list of tokens, with every partial operation spelled out.

A machine keeps all tokens, the one for the end included, and an index into them; the depth of
nesting is a counter that goes up and down.  What has no result stops it with a trap: an index
outside of the tokens, a counter below zero, the negative of the least integer.

* **`Trap`** — what stops a machine;
* **`Machine.tokenAt`, `Machine.decrement`, `Machine.negative`** — the operations that can;
* **`Machine.closureAhead`** — the search for an arrow, from the index of a parenthesis on;
* **`Machine.expression`, `Machine.query`** — the productions of the parser;
* **`Machine.callAll`** — several calls in turn, going on after errors.

Design notes: each production has the shape of that of the parser, so that runs can be compared step
by step.  The limits on rounds and levels are there for the recursion alone, and to run into one is a
trap too.  No counter needs a check where it goes up: each is bounded by a limit of the parser or by
the number of tokens.  All trees that are built on the way are kept, also those that an error throws
away.
-/
import PathQuery.Proofs.Parser.Calls

namespace PathQuery

/-- What stops a machine. -/
inductive Trap where
  /-- There is no token at this index. -/
  | outside (index : Nat)
  /-- A counter goes below zero. -/
  | belowZero
  /-- An integer has no negative. -/
  | overflow
  /-- A loop goes on behind its last round, or nesting below its last level. -/
  | exhausted
deriving DecidableEq, Repr

/-- All tokens, the index of the one at the front, the counters, and the trees built so far. -/
structure Machine.State where
  tokens : List Token
  current : Nat
  depth : Nat
  links : Nat
  built : List Expr
deriving Repr

abbrev Machine (α : Type) := ExceptT ParseError (StateT Machine.State (Except Trap)) α

namespace Machine

/-- A new machine in front of its tokens. -/
def start (tokens : List Token) : State := ⟨tokens, 0, 0, 0, []⟩

/-- Runs a production: a trap, or an answer with the state behind it, also after an error. -/
def runOn (q : Machine α) (c : State) : Except Trap (Except ParseError α × State) := q.run.run c

/-! ### Partial operations -/

def trap (t : Trap) : Machine α := ExceptT.mk fun _ => .error t

/-- The token at an index. -/
def tokenAt (index : Nat) : Machine Token := do
  match (← get).tokens[index]? with
  | some token => return token
  | none => trap (.outside index)

/-- One less than a counter. -/
def decrement : Nat → Machine Nat
  | 0 => trap .belowZero
  | n + 1 => return n

/-- The negative of an integer. -/
def negative (n : Int64) : Machine Int64 :=
  if n = Int64.minValue then trap .overflow else return -n

/-! ### Steps -/

/-- The token at the front, which stays there. -/
def peek : Machine Token := do tokenAt (← get).current

/-- Takes the token at the front; the one for the end stays. -/
def advance : Machine Token := do
  let token ← peek
  if token.kind ≠ .endOfInput then modify fun c => { c with current := c.current + 1 }
  return token

/-- Whether the token at the front is the given symbol. -/
def isNext (symbol : Symbol) : Machine Bool := do return (← peek).kind == .symbol symbol

/-- Complains about a token. -/
def unexpectedAt (token : Token) (expected : Expected) : Machine α :=
  throw ⟨if token.kind = .endOfInput then .unexpectedEnd expected
    else .unexpectedToken expected token.kind, token.position⟩

/-- Complains about the token at the front. -/
def unexpected (expected : Expected) : Machine α := do unexpectedAt (← peek) expected

/-- Takes the given symbol or complains. -/
def expect (symbol : Symbol) (expected : Expected) : Machine Unit := do
  if ← isNext symbol then discard advance else unexpected expected

/-- Counts a link on the path at hand. -/
def link : Machine Unit := do
  if maxChain ≤ (← get).links then throw ⟨.tooDeep maxChain, (← peek).position⟩
  modify fun c => { c with links := c.links + 1 }

/-- Runs a production one level further down.  The depth is set back whatever its answer is. -/
def nested (production : Machine α) : Machine α := do
  if maxNesting ≤ (← get).depth then throw ⟨.tooDeep maxNesting, (← peek).position⟩
  modify fun c => { c with depth := c.depth + 1 }
  let answer ← ExceptT.lift production.run
  let depth ← decrement (← get).depth
  modify fun c => { c with depth := depth }
  ofExcept answer

/-- A new tree. -/
def build (e : Expr) : Machine Expr := do
  modify fun c => { c with built := e :: c.built }
  return e

/-- A number of rounds that no loop needs, since each round takes a token. -/
def rounds : Machine Nat := do return (← get).tokens.length

/-! ### Productions -/

/-- The productions that nest. -/
structure Nested where
  expression : Machine Expr
  unary : Machine Expr

/-- The rounds of a chain: an operator, its right operand, and the two joined. -/
def chainRest (operator : TokenKind → Option (Expr → Expr → Expr)) (operand : Machine Expr) :
    (limit : Nat) → (left : Expr) → Machine Expr
  | 0, _ => trap .exhausted
  | limit + 1, left => do
    match operator (← peek).kind with
    | none => return left
    | some join =>
      link
      discard advance
      let right ← operand
      chainRest operator operand limit (← build (join left right))

/-- Operands with operators between them, grouped to the left. -/
def chain (operator : TokenKind → Option (Expr → Expr → Expr)) (operand : Machine Expr) :
    Machine Expr := do
  let first ← operand
  let links := (← get).links
  let result ← chainRest operator operand (← rounds) first
  modify fun c => { c with links := links }
  return result

/-- Expressions with commas between them up to the closing delimiter, which is taken. -/
def items (expression : Machine Expr) (delimiter : Delimiter) (opened : Position) :
    (limit : Nat) → Machine (List Expr)
  | 0 => trap .exhausted
  | limit + 1 => do
    let token ← peek
    if token.kind = .symbol delimiter.closer then
      discard advance
      return []
    else if token.kind = .endOfInput then throw ⟨.unclosed delimiter, opened⟩
    else
      let first ← expression
      let token ← peek
      if token.kind = .symbol .comma then discard advance
      else if token.kind = .symbol delimiter.closer then pure ()
      else if token.kind = .endOfInput then throw ⟨.unclosed delimiter, opened⟩
      else unexpected (.separatorOr delimiter)
      let rest ← items expression delimiter opened limit
      return first :: rest

/-- The items behind an opening delimiter. -/
def list (inner : Nested) (delimiter : Delimiter) (opened : Position) : Machine (List Expr) := do
  items inner.expression delimiter opened (← rounds)

/-- Takes the closing delimiter. -/
def close (delimiter : Delimiter) (opened : Position) : Machine Unit := do
  let token ← peek
  if token.kind = .symbol delimiter.closer then discard advance
  else if token.kind = .endOfInput then throw ⟨.unclosed delimiter, opened⟩
  else unexpected (.closing delimiter)

/-- Whether the parenthesis at the front is closed right in front of an arrow; `depth` counts the
ones that are open. -/
def arrowBehindClose : (depth : Nat) → List Token → Machine Bool
  | _, [] => return false
  | depth, token :: rest =>
    if token.kind = .symbol .leftParen then arrowBehindClose (depth + 1) rest
    else if token.kind = .symbol .rightParen then do
      match ← decrement depth with
      | 0 => return rest.head?.any (·.kind == .symbol .arrow)
      | depth + 1 => arrowBehindClose (depth + 1) rest
    else if token.kind = .endOfInput then return false
    else arrowBehindClose depth rest

/-- Whether the parenthesis at an index is closed right in front of an arrow. -/
def closureAhead (index : Nat) : Machine Bool := do
  discard (tokenAt index)
  arrowBehindClose 0 ((← get).tokens.drop index)

/-- Parameter names with commas between them; the closing parenthesis stays. -/
def parameters : (limit : Nat) → Machine (List String)
  | 0 => trap .exhausted
  | limit + 1 => do
    if ← isNext .rightParen then return []
    match (← peek).kind with
    | .identifier name =>
      discard advance
      if !(← isNext .rightParen) then expect .comma .parameterSeparator
      let rest ← parameters limit
      return name :: rest
    | _ => unexpected .parameterName

/-- The closure whose parenthesis, opened at `opened`, has been taken. -/
def closure (inner : Nested) (opened : Position) : Machine Expr := do
  let params ← parameters (← rounds)
  close .parenthesis opened
  expect .arrow .arrow
  let body ← inner.expression
  build (.closure params body)

/-- A closure or a call, whose parenthesis is at the front. -/
def call (inner : Nested) (name : String) : Machine Expr := do
  if name = "fn" then
    if ← closureAhead (← get).current then return ← closure inner (← advance).position
  let opened := (← advance).position
  build (.call name (← list inner .parenthesis opened))

/-- A closure or a group, whose parenthesis has been taken and stands one step back. -/
def group (inner : Nested) (opened : Position) : Machine Expr := do
  if ← closureAhead (← decrement (← get).current) then closure inner opened
  else
    let result ← inner.expression
    close .parenthesis opened
    return result

def primary (inner : Nested) : Machine Expr := do
  let token ← advance
  match token.kind with
  | .integer n => build (.literal (.number (.integer n)))
  | .float x => build (.literal (.number (.float x)))
  | .string s => build (.literal (.string s))
  | .boolean b => build (.literal (.boolean b))
  | .null => build (.literal .null)
  | .identifier name => if !(← isNext .leftParen) then build (.variable name) else call inner name
  | .symbol .leftParen => group inner token.position
  | .symbol .leftBracket => build (.list (← list inner .bracket token.position))
  | .symbol .rightParen => throw ⟨.unbalanced .parenthesis, token.position⟩
  | .symbol .rightBracket => throw ⟨.unbalanced .bracket, token.position⟩
  | _ => unexpectedAt token .expression

/-- The name of a member: an identifier or an index. -/
def memberName : Machine String := do
  match (← peek).kind with
  | .identifier name =>
    discard advance
    return name
  | .integer n =>
    if n < 0 then unexpected .memberName
    discard advance
    return toString n.toInt
  | _ => unexpected .memberName

/-- The member steps behind an object. -/
def members (inner : Nested) : (limit : Nat) → (object : Expr) → (nullSafe : Bool) → Machine Expr
  | 0, _, _ => trap .exhausted
  | limit + 1, object, nullSafe => do
    let kind := (← peek).kind
    if !kind.isDot then return object
    let nullSafe := nullSafe || kind == .symbol .nullSafeDot
    link
    discard advance
    let name ← memberName
    if ← isNext .leftParen then
      let opened := (← advance).position
      let arguments ← list inner .parenthesis opened
      members inner limit (← build (.memberCall object name arguments nullSafe)) nullSafe
    else members inner limit (← build (.member object name nullSafe)) nullSafe

/-- A primary expression and the member steps behind it. -/
def path (inner : Nested) : Machine Expr := do
  let object ← primary inner
  let links := (← get).links
  let result ← members inner (← rounds) object false
  modify fun c => { c with links := links }
  return result

/-- The negative of an operand. -/
def negate : Expr → Machine Expr
  | .literal (.number (.integer n)) => do build (.literal (.number (.integer (← negative n))))
  | .literal (.number (.float x)) => build (.literal (.number (.float (-x))))
  | operand => build (.arithmetic .subtract (.literal (.number (.integer 0))) operand)

def unary (inner : Nested) : Machine Expr := do
  if ← isNext .minus then
    discard advance
    negate (← inner.unary)
  else path inner

def multiplicative (inner : Nested) : Machine Expr :=
  chain Parser.multiplicativeOperator (unary inner)

def additive (inner : Nested) : Machine Expr := chain Parser.additiveOperator (multiplicative inner)

def comparison (inner : Nested) : Machine Expr := chain Parser.comparisonOperator (additive inner)

def conjunction (inner : Nested) : Machine Expr := chain Parser.andOperator (comparison inner)

def disjunction (inner : Nested) : Machine Expr := chain Parser.orOperator (conjunction inner)

def coalesce (inner : Nested) : Machine Expr := chain Parser.coalesceOperator (disjunction inner)

/-- A conditional, or just its condition. -/
def conditional (inner : Nested) : Machine Expr := do
  let condition ← coalesce inner
  if !(← isNext .question) then return condition
  discard advance
  if ← isNext .colon then
    discard advance
    build (.elvis condition (← inner.expression))
  else
    let whenTrue ← inner.expression
    expect .colon .ternaryColon
    build (.ternary condition whenTrue (← inner.expression))

/-! ### Nesting and calls -/

/-- The productions that nest, each of which counts its level; `levels` are left for the
recursion. -/
def nestedAt : (levels : Nat) → Nested
  | 0 => ⟨trap .exhausted, trap .exhausted⟩
  | levels + 1 => ⟨nested (conditional (nestedAt levels)), nested (unary (nestedAt levels))⟩

/-- One expression; tokens behind it stay. -/
def expression : Machine Expr := (nestedAt (maxNesting + 1)).expression

/-- One expression that ends the tokens. -/
def query : Machine Expr := do
  let result ← expression
  let token ← peek
  match token.kind with
  | .endOfInput => return result
  | .symbol .rightParen => throw ⟨.unbalanced .parenthesis, token.position⟩
  | .symbol .rightBracket => throw ⟨.unbalanced .bracket, token.position⟩
  | _ => unexpected .operatorOrEnd

/-- The production behind a call. -/
def ofCall : Parser.Call → Machine Expr
  | .expression => expression
  | .query => query

/-- The answers to calls in turn, and the state behind them. -/
def callAll : List Parser.Call → State → Except Trap (List (Except ParseError Expr) × State)
  | [], c => return ([], c)
  | call :: calls, c => do
    let (answer, c) ← runOn (ofCall call) c
    let (answers, c) ← callAll calls c
    return (answer :: answers, c)

/-- Without the token for the end there is nothing at the index behind the last token. -/
example : callAll [.expression] (start [⟨.null, .start⟩]) = .error (.outside 1) := rfl

/-- A literal of the least integer, which no text has, cannot be negated. -/
example : callAll [.expression] (start [⟨.symbol .minus, .start⟩,
    ⟨.integer Int64.minValue, .start⟩, ⟨.endOfInput, .start⟩]) = .error .overflow := rfl

end Machine

end PathQuery
