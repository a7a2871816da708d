/-
Places in a text.

* **`Position.after`** — the place behind one more character; a line feed starts a new line;
* **`Position.afterAll`** — the place behind several.
-/

namespace PathQuery

/-- A place in a text: characters before it, its line and its column, the last two from one on. -/
structure Position where
  offset : Nat
  line : Nat
  column : Nat
deriving DecidableEq, Repr, Inhabited

namespace Position

/-- The place of the first character. -/
def start : Position := ⟨0, 1, 1⟩

/-- The place behind the character `c` that stands at `p`. -/
def after (p : Position) (c : Char) : Position :=
  if c = '\n' then ⟨p.offset + 1, p.line + 1, 1⟩ else ⟨p.offset + 1, p.line, p.column + 1⟩

/-- The place behind the characters `cs` that stand from `p` on. -/
def afterAll (p : Position) (cs : List Char) : Position := cs.foldl after p

/-- How messages name a place. -/
def text (p : Position) : String := s!"line {p.line}, column {p.column}"

end Position

end PathQuery
