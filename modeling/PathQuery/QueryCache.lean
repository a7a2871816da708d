/-
A store of parsed queries, by their exact text.

* **`QueryCache.insert`** — stores a tree unless there is one for the text, and gives the one that
  is stored;
* **`QueryCache.compile`** — the tree of a text, parsed only if it is not stored.

Design notes: every stored tree has a number of its own, which tells apart equal trees that were
stored separately.
-/
import PathQuery.Expr.Parse
import PathQuery.Fields

namespace PathQuery

/-- A stored tree and its number. -/
structure StoredTree where
  id : Nat
  tree : Expr
deriving Inhabited

/-- Stored trees by text, and the number for the next one. -/
structure QueryCache where
  entries : List (String × StoredTree)
  nextId : Nat
deriving Inhabited

namespace QueryCache

def empty : QueryCache := ⟨[], 0⟩

def get? (c : QueryCache) (query : String) : Option StoredTree := c.entries.lookup query

def size (c : QueryCache) : Nat := c.entries.length

def isEmpty (c : QueryCache) : Bool := c.size == 0

/-- Stores a tree for a text; the first one stays. -/
def insert (c : QueryCache) (query : String) (tree : Expr) : StoredTree × QueryCache :=
  match c.get? query with
  | some stored => (stored, c)
  | none =>
    let stored : StoredTree := ⟨c.nextId, tree⟩
    (stored, ⟨Fields.insert query stored c.entries, c.nextId + 1⟩)

/-- Forgets all trees; their numbers are not used again. -/
def clear (c : QueryCache) : QueryCache := { c with entries := [] }

/-- The stored tree of a text, parsed and stored now if it is not there. -/
def compile (c : QueryCache) (query : String) : Except ParseError StoredTree × QueryCache :=
  match c.get? query with
  | some stored => (.ok stored, c)
  | none =>
    match Expr.parse query with
    | .ok tree =>
      let (stored, c) := c.insert query tree
      (.ok stored, c)
    | .error e => (.error e, c)

end QueryCache

end PathQuery
