/-
The functions of the host that every query can name.

* **`Globals.register`** — gives a name a function, in place of an earlier one;
* **`Globals.description`** — the names, sorted, for people to read.
-/
import PathQuery.Fields
import PathQuery.Text.Quoted

namespace PathQuery

/-- A table from names to functions of the host, each given by its number. -/
structure Globals where
  entries : List (String × Nat)
deriving DecidableEq, Repr, Inhabited

namespace Globals

def empty : Globals := ⟨[]⟩

def register (g : Globals) (name : String) (function : Nat) : Globals :=
  ⟨Fields.insert name function g.entries⟩

def get? (g : Globals) (name : String) : Option Nat := g.entries.lookup name

def contains (g : Globals) (name : String) : Bool := (g.get? name).isSome

def size (g : Globals) : Nat := g.entries.length

def isEmpty (g : Globals) : Bool := g.entries.isEmpty

/-- The names in order of their code points. -/
def names (g : Globals) : List String := (g.entries.map Prod.fst).mergeSort (· ≤ ·)

/-- The table as people see it. -/
def description (g : Globals) : String :=
  "Globals \x7b functions: [" ++ ", ".intercalate (g.names.map Text.quoted) ++ "] \x7d"

end Globals

end PathQuery
