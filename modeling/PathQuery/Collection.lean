/-
The built-in methods of arrays and objects.

A method that takes a selector applies it to elements: `select` does that, and may run code of the
host or of a closure, so those methods are evaluations.

* **`Collection.arrayMethod?`, `Collection.objectMethod?`** — the method of a name, if there is one;
* **`Collection.total`** — the sum, an integer as long as it can be;
* **`Collection.sortByKey`** — the stable sort of elements by their keys.
-/
import PathQuery.Host
import PathQuery.StableSort
import PathQuery.Value.Equality

namespace PathQuery.Collection

variable {σ : Type}

/-- Applies the selector `selector` of a method to an element. -/
abbrev Select (σ : Type) := (method : String) → (selector item : Value) → Eval σ Value

/-- The selection of an element, or the element itself without a selector. -/
def selected (select : Select σ) (method : String) (args : List Value) (item : Value) :
    Eval σ Value :=
  match args.head? with
  | some selector => select method selector item
  | none => return item

/-- The selector of a method that needs one. -/
def required (method : String) (args : List Value) : Eval σ Value :=
  match args.head? with
  | some selector => return selector
  | none => throw (.typeFault (.missingSelector method))

/-! ### Choosing and mapping -/

/-- The elements whose selection is truthy. -/
def filter (select : Select σ) (items args : List Value) : Eval σ Value := do
  let selector ← required "filter" args
  let flags ← items.mapM (select "filter" selector)
  return .array (((items.zip flags).filter (·.2.isTruthy)).map (·.1))

/-- The selections of the elements. -/
def map (select : Select σ) (items args : List Value) : Eval σ Value := do
  let selector ← required "map" args
  return .array (← items.mapM (select "map" selector))

/-- The members of one name of the elements. -/
def pluck (select : Select σ) (items args : List Value) : Eval σ Value :=
  match args.head? with
  | some (.string member) => return .array (← items.mapM (select "pluck" (.string member)))
  | _ => throw (.typeFault .missingMemberName)

/-- Whether a selection is truthy; elements behind the first such one are not looked at. -/
def any (select : Select σ) (items args : List Value) : Eval σ Value :=
  return .boolean (← items.anyM fun item => return (← selected select "any" args item).isTruthy)

/-- Whether every selection is truthy; elements behind the first other one are not looked at. -/
def all (select : Select σ) (items args : List Value) : Eval σ Value :=
  return .boolean (← items.allM fun item => return (← selected select "all" args item).isTruthy)

/-! ### Sums -/

/-- The selections as numbers. -/
def numbers (select : Select σ) (method : String) (items args : List Value) :
    Eval σ (List Number) :=
  items.mapM fun item => do
    let v ← selected select method args item
    match v.toNumber? with
    | some n => return n
    | none => throw (.typeFault (.notNumeric method v.kind))

/-- A running total and one more number.  The total is a float from the first number on that is
one, or that makes the total leave the 64-bit integers. -/
def addToTotal : Number → Number → Number
  | .integer total, .integer n =>
    match int64Of? (total.toInt + n.toInt) with
    | some sum => .integer sum
    | none => .float (.ofInt total.toInt + .ofInt n.toInt)
  | total, n => .float (total.toBinary64 + n.toBinary64)

/-- The sum of numbers, zero for none. -/
def total (ns : List Number) : Number := ns.foldl addToTotal (.integer 0)

def sum (select : Select σ) (items args : List Value) : Eval σ Value :=
  return .number (total (← numbers select "sum" items args))

/-- The mean of numbers, none for none.  The sum starts from the negative zero, which any first
number leaves as it is. -/
def mean (ns : List Number) : Option Binary64 :=
  if ns.isEmpty then none
  else some (ns.foldl (fun sum n => sum + n.toBinary64) (-.zero) / .ofNat ns.length)

def avg (select : Select σ) (items args : List Value) : Eval σ Value := do
  match mean (← numbers select "avg" items args) with
  | some x => return .float x
  | none => return .null

/-! ### Order -/

/-- The first element that no later one beats, `wanted` being how a better one ranks. -/
def extreme? (wanted : Ordering) (items : List Value) : Option Value :=
  items.foldl
    (fun best item =>
      match best with
      | some current => if item.rankAgainst current == wanted then some item else best
      | none => some item)
    none

/-- Whether the key of an element ranks below that of another one. -/
def ranksBelow (entry other : Value × Value) : Bool := entry.2.rankAgainst other.2 == .lt

/-- Elements, each with its key, in the order of their keys; none if those are found to be in no
order. -/
def sortByKey (entries : List (Value × Value)) : Option (List (Value × Value)) :=
  StableSort.sort ranksBelow entries

def sort (select : Select σ) (items args : List Value) : Eval σ Value := do
  let keys ← items.mapM (selected select "sort" args)
  match sortByKey (items.zip keys) with
  | some entries => return .array (entries.map (·.1))
  | none => throw (.typeFault .noTotalOrder)

/-! ### Rearranging -/

/-- The elements that are not identical to an earlier one. -/
def unique (items : List Value) : List Value :=
  items.foldl (fun kept item => if kept.any (·.identical item) then kept else kept ++ [item]) []

/-- The elements of the elements that are arrays, and the other elements. -/
def flatten (items : List Value) : List Value :=
  items.flatMap fun
    | .array inner => inner
    | item => [item]

/-- The texts of the elements with a separator between them. -/
def join (items args : List Value) : String :=
  let separator := match args.head? with
    | some v => v.text
    | none => ", "
  separator.intercalate (items.map Value.text)

/-! ### Methods by name -/

/-- The method `name` of an array. -/
def arrayMethod? (select : Select σ) (name : String) (items args : List Value) :
    Option (Eval σ Value) :=
  match name with
  | "count" => some (return .ofLength items.length)
  | "length" => some (return .ofLength items.length)
  | "first" => some (return items.head?.getD .null)
  | "last" => some (return items.getLast?.getD .null)
  | "isEmpty" => some (return .boolean items.isEmpty)
  | "isNotEmpty" => some (return .boolean !items.isEmpty)
  | "filter" => some (filter select items args)
  | "map" => some (map select items args)
  | "pluck" => some (pluck select items args)
  | "any" => some (any select items args)
  | "all" => some (all select items args)
  | "sum" => some (sum select items args)
  | "min" => some (return (extreme? .lt items).getD .null)
  | "max" => some (return (extreme? .gt items).getD .null)
  | "avg" => some (avg select items args)
  | "unique" => some (return .array (unique items))
  | "sort" => some (sort select items args)
  | "reverse" => some (return .array items.reverse)
  | "flatten" => some (return .array (flatten items))
  | "join" => some (return .string (join items args))
  | _ => none

/-- The method `name` of an object, which takes no arguments and runs nothing. -/
def objectMethod? (name : String) (fields : List (String × Value)) : Option Value :=
  match name with
  | "count" => some (.ofLength fields.length)
  | "length" => some (.ofLength fields.length)
  | "keys" => some (.array (fields.map fun field => .string field.1))
  | "values" => some (.array (fields.map (·.2)))
  | "first" => some ((fields.head?.map (·.2)).getD .null)
  | "last" => some ((fields.getLast?.map (·.2)).getD .null)
  | "isEmpty" => some (.boolean fields.isEmpty)
  | "isNotEmpty" => some (.boolean !fields.isEmpty)
  | _ => none

end PathQuery.Collection
