/-
The variables of an evaluation.

A context is a stack of layers: its own variables and those of the contexts it was nested in.  A
name is looked up from the innermost layer outwards.

* **`Context.get?`** — the value of a name;
* **`Context.toFields`** — all visible variables as one ordered map, in which an inner layer
  replaces the values of an outer one where they stand.
-/
import PathQuery.Value

namespace PathQuery

/-- Layers of variables: the own one, and the outer ones from the innermost on. -/
structure Context where
  own : List (String × Value)
  outer : List (List (String × Value))
deriving Inhabited

namespace Context

def empty : Context := ⟨[], []⟩

/-- A single layer. -/
def ofFields (fields : List (String × Value)) : Context := ⟨fields, []⟩

/-- An empty layer on top of `c`. -/
def nested (c : Context) : Context := ⟨[], c.own :: c.outer⟩

/-- Sets a variable of the own layer. -/
def insert (c : Context) (name : String) (value : Value) : Context :=
  { c with own := Fields.insert name value c.own }

/-- The layers from the innermost on. -/
def layers (c : Context) : List (List (String × Value)) := c.own :: c.outer

/-- The value of a name in the innermost layer that has it. -/
def get? (c : Context) (name : String) : Option Value := c.layers.findSome? (·.lookup name)

def contains (c : Context) (name : String) : Bool := (c.get? name).isSome

/-- The number of variables of the own layer. -/
def size (c : Context) : Nat := c.own.length

/-- Whether no layer has a variable. -/
def isEmpty (c : Context) : Bool := c.layers.all (·.isEmpty)

/-- The visible variables, the outermost layer's first. -/
def toFields (c : Context) : List (String × Value) :=
  c.layers.foldr (fun layer fields => Fields.insertAll fields layer) []

end Context

end PathQuery
