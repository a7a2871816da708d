/-
Derivations of the query grammar.

A derivation is a parse tree of the grammar

    expression     := coalesce ("?" ":" expression | "?" expression ":" expression)?
    coalesce       := or ("??" or)*
    or             := and ("||" and)*
    and            := comparison ("&&" comparison)*
    comparison     := additive (("==" | "===" | "!=" | "!==" | "<" | "<=" | ">" | ">=") additive)*
    additive       := multiplicative (("+" | "-") multiplicative)*
    multiplicative := unary (("*" | "/" | "%") unary)*
    unary          := "-" unary | path
    path           := primary (("." | "?.") member ("(" items ")")?)*
    primary        := literal | name | name "(" items ")" | "(" expression ")" | "[" items "]"
                    | "fn"? "(" params ")" "=>" expression
    items          := (expression ("," expression)* ","?)?

with the iterations written as left recursion.  The grammar is ambiguous: a closure may end its
body anywhere.

* **`Derivation.tokens`** — the tokens that are derived;
* **`Derivation.tree`** — the expression that they stand for;
* **`Derivation.IsGreedy`** — no closure body could reach further to the right;
* **`Derivation.nesting`, `Derivation.links`** — how deep it nests and how many links chain up.

Design notes: tokens are kinds only, without places.  The counts are those of a parser that reads
the derivation: `nesting` is the number of further levels it needs, `links` the highest number of
operators and member steps it has to remember at once.
-/
import PathQuery.Expr.Parse

namespace PathQuery

/-! ### Nonterminals -/

/-- The levels of binary operators, from the loosest to the tightest. -/
inductive Level where
  | coalesce
  | disjunction
  | conjunction
  | comparison
  | additive
  | multiplicative
deriving DecidableEq, Repr

/-- What derives an expression. -/
inductive Nonterminal where
  | expression
  | binary (level : Level)
  | unary
  | path
  | primary
deriving DecidableEq, Repr

/-- What the operands of a level are. -/
def Level.operand : Level → Nonterminal
  | .coalesce => .binary .disjunction
  | .disjunction => .binary .conjunction
  | .conjunction => .binary .comparison
  | .comparison => .binary .additive
  | .additive => .binary .multiplicative
  | .multiplicative => .unary

/-! ### Terminals -/

/-- A binary operator of any level. -/
inductive BinaryOp where
  | coalesce
  | logical (op : LogicalOp)
  | comparison (op : ComparisonOp)
  | arithmetic (op : ArithmeticOp)
deriving DecidableEq, Repr

namespace BinaryOp

def level : BinaryOp → Level
  | .coalesce => .coalesce
  | .logical .or => .disjunction
  | .logical .and => .conjunction
  | .comparison _ => .comparison
  | .arithmetic .add => .additive
  | .arithmetic .subtract => .additive
  | .arithmetic .multiply => .multiplicative
  | .arithmetic .divide => .multiplicative
  | .arithmetic .modulo => .multiplicative

def symbol : BinaryOp → Symbol
  | .coalesce => .coalesce
  | .logical .or => .or
  | .logical .and => .and
  | .comparison .equal => .equal
  | .comparison .identical => .identical
  | .comparison .notEqual => .notEqual
  | .comparison .notIdentical => .notIdentical
  | .comparison .less => .less
  | .comparison .lessEqual => .lessEqual
  | .comparison .greater => .greater
  | .comparison .greaterEqual => .greaterEqual
  | .arithmetic .add => .plus
  | .arithmetic .subtract => .minus
  | .arithmetic .multiply => .star
  | .arithmetic .divide => .slash
  | .arithmetic .modulo => .percent

/-- The tree of an operation. -/
def join : BinaryOp → Expr → Expr → Expr
  | .coalesce => .coalesce
  | .logical op => .logical op
  | .comparison op => .comparison op
  | .arithmetic op => .arithmetic op

end BinaryOp

/-- The token of a literal. -/
def Literal.token : Literal → TokenKind
  | .null => .null
  | .boolean b => .boolean b
  | .number (.integer n) => .integer n
  | .number (.float x) => .float x
  | .string s => .string s

/-- The name of a member: an identifier or an unsigned integer. -/
inductive MemberName where
  | identifier (name : String)
  | index (value : Int64) (nonneg : ¬ value < 0)

namespace MemberName

def token : MemberName → TokenKind
  | .identifier name => .identifier name
  | .index n _ => .integer n

def text : MemberName → String
  | .identifier name => name
  | .index n _ => toString n.toInt

end MemberName

/-- The symbol of a member step. -/
def dotSymbol (nullSafe : Bool) : Symbol := if nullSafe then .nullSafeDot else .dot

/-- Parameter names with commas between them, and perhaps one more comma at the end. -/
def parameterTokens : List String → (trailing : Bool) → List TokenKind
  | [], _ => []
  | [name], trailing => .identifier name :: if trailing then [.symbol .comma] else []
  | name :: next :: rest, trailing =>
    .identifier name :: .symbol .comma :: parameterTokens (next :: rest) trailing

/-- The tokens of a closure in front of its body. -/
def closureHead (keyword : Bool) (params : List String) (trailing : Bool) : List TokenKind :=
  (if keyword then [.identifier "fn"] else []) ++ .symbol .leftParen ::
    (parameterTokens params trailing ++ [.symbol .rightParen, .symbol .arrow])

/-! ### Derivations -/

mutual

/-- The derivations from a nonterminal, one constructor for each production. -/
inductive Derivation : Nonterminal → Type where
  | condition (c : Derivation (.binary .coalesce)) : Derivation .expression
  | elvis (c : Derivation (.binary .coalesce)) (otherwise : Derivation .expression) :
      Derivation .expression
  | ternary (c : Derivation (.binary .coalesce)) (whenTrue otherwise : Derivation .expression) :
      Derivation .expression
  | operand (level : Level) (x : Derivation level.operand) : Derivation (.binary level)
  | operation (level : Level) (op : BinaryOp) (ofLevel : op.level = level)
      (left : Derivation (.binary level)) (right : Derivation level.operand) :
      Derivation (.binary level)
  | path (p : Derivation .path) : Derivation .unary
  | minus (x : Derivation .unary) : Derivation .unary
  | primary (p : Derivation .primary) : Derivation .path
  | step (object : Derivation .path) (nullSafe : Bool) (name : MemberName) : Derivation .path
  | stepCall (object : Derivation .path) (nullSafe : Bool) (name : MemberName)
      (arguments : Items) : Derivation .path
  | literal (value : Literal) : Derivation .primary
  | name (name : String) : Derivation .primary
  | call (name : String) (arguments : Items) : Derivation .primary
  | group (inner : Derivation .expression) : Derivation .primary
  | list (elements : Items) : Derivation .primary
  | closure (keyword : Bool) (params : List String) (trailing : Bool)
      (body : Derivation .expression) : Derivation .primary

/-- The derivations of items; `more` with no items behind it has a comma at the end. -/
inductive Items : Type where
  | none : Items
  | last (e : Derivation .expression) : Items
  | more (e : Derivation .expression) (rest : Items) : Items

end

/-- A minus sign in front of a tree: a literal number changes its sign, anything else is taken
from zero. -/
def Expr.negated : Expr → Expr
  | .literal (.number (.integer n)) => .literal (.number (.integer (-n)))
  | .literal (.number (.float x)) => .literal (.number (.float (-x)))
  | e => .arithmetic .subtract (.literal (.number (.integer 0))) e

mutual

/-- The tokens that are derived. -/
@[simp] def Derivation.tokens : {n : Nonterminal} → Derivation n → List TokenKind
  | _, .condition c => c.tokens
  | _, .elvis c o => c.tokens ++ .symbol .question :: .symbol .colon :: o.tokens
  | _, .ternary c t o =>
    c.tokens ++ .symbol .question :: (t.tokens ++ .symbol .colon :: o.tokens)
  | _, .operand _ x => x.tokens
  | _, .operation _ op _ l r => l.tokens ++ .symbol op.symbol :: r.tokens
  | _, .path p => p.tokens
  | _, .minus x => .symbol .minus :: x.tokens
  | _, .primary p => p.tokens
  | _, .step o nullSafe name => o.tokens ++ [.symbol (dotSymbol nullSafe), name.token]
  | _, .stepCall o nullSafe name args =>
    o.tokens ++ .symbol (dotSymbol nullSafe) :: name.token :: .symbol .leftParen ::
      (args.tokens ++ [.symbol .rightParen])
  | _, .literal v => [v.token]
  | _, .name name => [.identifier name]
  | _, .call name args =>
    .identifier name :: .symbol .leftParen :: (args.tokens ++ [.symbol .rightParen])
  | _, .group e => .symbol .leftParen :: (e.tokens ++ [.symbol .rightParen])
  | _, .list es => .symbol .leftBracket :: (es.tokens ++ [.symbol .rightBracket])
  | _, .closure keyword params trailing body => closureHead keyword params trailing ++ body.tokens

/-- The tokens of items, without the delimiters. -/
@[simp] def Items.tokens : Items → List TokenKind
  | .none => []
  | .last e => e.tokens
  | .more e rest => e.tokens ++ .symbol .comma :: rest.tokens

end

namespace Derivation

/-- Whether a chain of member steps has a null-safe one. -/
def nullSafe : {n : Nonterminal} → Derivation n → Bool
  | _, .step o s _ => o.nullSafe || s
  | _, .stepCall o s _ _ => o.nullSafe || s
  | _, _ => false

/-- Whether the last tokens are the body of a closure, which more tokens could belong to. -/
def isOpen : {n : Nonterminal} → Derivation n → Bool
  | _, .condition c => c.isOpen
  | _, .elvis _ o => o.isOpen
  | _, .ternary _ _ o => o.isOpen
  | _, .operand _ x => x.isOpen
  | _, .operation _ _ _ _ r => r.isOpen
  | _, .path p => p.isOpen
  | _, .minus x => x.isOpen
  | _, .primary p => p.isOpen
  | _, .closure _ _ _ _ => true
  | _, _ => false

/-- The number of links of the chain at the top. -/
def rounds : {n : Nonterminal} → Derivation n → Nat
  | _, .operation _ _ _ l _ => l.rounds + 1
  | _, .step o _ _ => o.rounds + 1
  | _, .stepCall o _ _ _ => o.rounds + 1
  | _, _ => 0

end Derivation

mutual

/-- The tree of a derivation.  From the first null-safe step of a chain on all are null-safe. -/
@[simp] def Derivation.tree : {n : Nonterminal} → Derivation n → Expr
  | _, .condition c => c.tree
  | _, .elvis c o => .elvis c.tree o.tree
  | _, .ternary c t o => .ternary c.tree t.tree o.tree
  | _, .operand _ x => x.tree
  | _, .operation _ op _ l r => op.join l.tree r.tree
  | _, .path p => p.tree
  | _, .minus x => x.tree.negated
  | _, .primary p => p.tree
  | _, .step o s name => .member o.tree name.text (o.nullSafe || s)
  | _, .stepCall o s name args => .memberCall o.tree name.text args.trees (o.nullSafe || s)
  | _, .literal v => .literal v
  | _, .name name => .variable name
  | _, .call name args => .call name args.trees
  | _, .group e => e.tree
  | _, .list es => .list es.trees
  | _, .closure _ params _ body => .closure params body.tree

/-- The trees of items. -/
@[simp] def Items.trees : Items → List Expr
  | .none => []
  | .last e => [e.tree]
  | .more e rest => e.tree :: rest.trees

end

mutual

/-- Every closure body reaches as far to the right as it can: nothing that more tokens follow ends
in one. -/
def Derivation.IsGreedy : {n : Nonterminal} → Derivation n → Prop
  | _, .condition c => c.IsGreedy
  | _, .elvis c o => c.isOpen = false ∧ c.IsGreedy ∧ o.IsGreedy
  | _, .ternary c t o => c.isOpen = false ∧ c.IsGreedy ∧ t.IsGreedy ∧ o.IsGreedy
  | _, .operand _ x => x.IsGreedy
  | _, .operation _ _ _ l r => l.isOpen = false ∧ l.IsGreedy ∧ r.IsGreedy
  | _, .path p => p.IsGreedy
  | _, .minus x => x.IsGreedy
  | _, .primary p => p.IsGreedy
  | _, .step o _ _ => o.isOpen = false ∧ o.IsGreedy
  | _, .stepCall o _ _ args => o.isOpen = false ∧ o.IsGreedy ∧ args.IsGreedy
  | _, .literal _ => True
  | _, .name _ => True
  | _, .call _ args => args.IsGreedy
  | _, .group e => e.IsGreedy
  | _, .list es => es.IsGreedy
  | _, .closure _ _ _ body => body.IsGreedy

def Items.IsGreedy : Items → Prop
  | .none => True
  | .last e => e.IsGreedy
  | .more e rest => e.IsGreedy ∧ rest.IsGreedy

end

/-! ### Counts -/

mutual

/-- How many levels of nesting a derivation takes. -/
def Derivation.nesting : {n : Nonterminal} → Derivation n → Nat
  | _, .condition c => c.nesting
  | _, .elvis c o => max c.nesting (o.nesting + 1)
  | _, .ternary c t o => max c.nesting (max (t.nesting + 1) (o.nesting + 1))
  | _, .operand _ x => x.nesting
  | _, .operation _ _ _ l r => max l.nesting r.nesting
  | _, .path p => p.nesting
  | _, .minus x => x.nesting + 1
  | _, .primary p => p.nesting
  | _, .step o _ _ => o.nesting
  | _, .stepCall o _ _ args => max o.nesting args.nesting
  | _, .literal _ => 0
  | _, .name _ => 0
  | _, .call _ args => args.nesting
  | _, .group e => e.nesting + 1
  | _, .list es => es.nesting
  | _, .closure _ _ _ body => body.nesting + 1

def Items.nesting : Items → Nat
  | .none => 0
  | .last e => e.nesting + 1
  | .more e rest => max (e.nesting + 1) rest.nesting

end

mutual

/-- How many links add up along a path of a derivation: those of a chain count for what stands to
the right of them. -/
def Derivation.links : {n : Nonterminal} → Derivation n → Nat
  | _, .condition c => c.links
  | _, .elvis c o => max c.links o.links
  | _, .ternary c t o => max c.links (max t.links o.links)
  | _, .operand _ x => x.links
  | _, .operation _ _ _ l r => max l.links (l.rounds + 1 + r.links)
  | _, .path p => p.links
  | _, .minus x => x.links
  | _, .primary p => p.links
  | _, .step o _ _ => max o.links (o.rounds + 1)
  | _, .stepCall o _ _ args => max o.links (o.rounds + 1 + args.links)
  | _, .literal _ => 0
  | _, .name _ => 0
  | _, .call _ args => args.links
  | _, .group e => e.links
  | _, .list es => es.links
  | _, .closure _ _ _ body => body.links

def Items.links : Items → Nat
  | .none => 0
  | .last e => e.links
  | .more e rest => max e.links rest.links

end

end PathQuery
