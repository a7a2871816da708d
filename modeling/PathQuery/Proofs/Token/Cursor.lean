/-
Places, and the characters between two cursors.

* **`Position.IsPlaceOf`** — a place of a text: its line and its column are those of its offset;
* **`Cursor.Takes`** — the second cursor stands behind some characters at the first;
* **`Cursor.Reaches`**, **`Cursor.Passes`** — a cursor, and a place, at or behind a cursor.
-/
import Mathlib.Data.List.Induction
import PathQuery.Token.Scan

namespace PathQuery

open Text

/-! ### Places -/

namespace Position

theorem afterAll_append (p : Position) (cs ds : List Char) :
    p.afterAll (cs ++ ds) = (p.afterAll cs).afterAll ds := List.foldl_append

theorem offset_after (p : Position) (c : Char) : (p.after c).offset = p.offset + 1 := by
  unfold after
  split <;> rfl

theorem line_after (p : Position) (c : Char) : (p.after c).line = p.line + [c].count '\n' := by
  unfold after
  split
  case isTrue h => rw [h]; rfl
  case isFalse h => rw [List.count_eq_zero_of_not_mem (by simpa using Ne.symm h)]; rfl

theorem offset_afterAll (p : Position) (cs : List Char) :
    (p.afterAll cs).offset = p.offset + cs.length := by
  induction cs generalizing p with
  | nil => rfl
  | cons c cs ih =>
    calc ((p.after c).afterAll cs).offset = (p.after c).offset + cs.length := ih _
      _ = p.offset + (c :: cs).length := by rw [offset_after, List.length_cons]; omega

theorem line_afterAll (p : Position) (cs : List Char) :
    (p.afterAll cs).line = p.line + cs.count '\n' := by
  induction cs generalizing p with
  | nil => rfl
  | cons c cs ih =>
    calc ((p.after c).afterAll cs).line = (p.after c).line + cs.count '\n' := ih _
      _ = p.line + ([c].count '\n' + cs.count '\n') := by rw [line_after]; omega
      _ = p.line + (c :: cs).count '\n' := by rw [← List.count_append]; rfl

/-- The characters behind the last line feed. -/
def lastLine (cs : List Char) : List Char := (cs.reverse.takeWhile (· ≠ '\n')).reverse

theorem lastLine_concat (cs : List Char) (c : Char) :
    lastLine (cs ++ [c]) = if c = '\n' then [] else lastLine cs ++ [c] := by
  unfold lastLine
  split
  case isTrue h => simp [h]
  case isFalse h => simp [h]

theorem column_afterAll_start (cs : List Char) :
    (start.afterAll cs).column = 1 + (lastLine cs).length := by
  induction cs using List.reverseRecOn with
  | nil => rfl
  | append_singleton cs c ih =>
    rw [afterAll_append, lastLine_concat]
    show ((start.afterAll cs).after c).column = _
    unfold after
    split
    case isTrue => rfl
    case isFalse => rw [ih, List.length_append]; rfl

/-- A place of a text: as many characters stand before it as its offset says, its line is one more
than the line feeds among them, and its column one more than the characters behind the last. -/
structure IsPlaceOf (text : List Char) (p : Position) : Prop where
  offset_le : p.offset ≤ text.length
  line_eq : p.line = 1 + (text.take p.offset).count '\n'
  column_eq : p.column = 1 + (lastLine (text.take p.offset)).length

theorem isPlaceOf_afterAll (before rest : List Char) :
    (start.afterAll before).IsPlaceOf (before ++ rest) := by
  have hoffset : (start.afterAll before).offset = before.length := by
    rw [offset_afterAll]
    exact Nat.zero_add _
  refine ⟨?_, ?_, ?_⟩
  · rw [hoffset, List.length_append]
    exact Nat.le_add_right _ _
  · rw [hoffset, List.take_left, line_afterAll]
    rfl
  · rw [hoffset, List.take_left, column_afterAll_start]

end Position

/-! ### Between two cursors -/

namespace Cursor

/-- The second cursor stands behind the characters `taken` at the first. -/
structure Takes (c : Cursor) (taken : List Char) (c' : Cursor) : Prop where
  rest : c.rest = taken ++ c'.rest
  position : c'.position = c.position.afterAll taken

variable {c c' c'' : Cursor} {taken taken' : List Char}

theorem Takes.nil (c : Cursor) : c.Takes [] c := ⟨rfl, rfl⟩

theorem Takes.single (a : Char) (rest : List Char) (position : Position) :
    Takes ⟨a :: rest, position⟩ [a] ⟨rest, position.after a⟩ := ⟨rfl, rfl⟩

theorem Takes.append (h : c.Takes taken c') (h' : c'.Takes taken' c'') :
    c.Takes (taken ++ taken') c'' := by
  refine ⟨?_, ?_⟩
  · rw [h.rest, h'.rest, List.append_assoc]
  · rw [h'.position, h.position, Position.afterAll_append]

theorem takes_drop (c : Cursor) (n : Nat) : c.Takes (c.rest.take n) (c.drop n) :=
  ⟨(List.take_append_drop n c.rest).symm, rfl⟩

theorem drop_length {rest : List Char} (h : c.rest = taken ++ rest) :
    c.drop taken.length = ⟨rest, c.position.afterAll taken⟩ := by
  rw [drop, h, List.drop_left, List.take_left]

theorem takes_drop_length {rest : List Char} (h : c.rest = taken ++ rest) :
    c.Takes taken (c.drop taken.length) := by
  rw [drop_length h]
  exact ⟨h, rfl⟩

theorem takes_dropWhile (c : Cursor) (p : Char → Bool) :
    c.Takes (c.rest.takeWhile p) (c.dropWhile p) :=
  ⟨List.takeWhile_append_dropWhile.symm, rfl⟩

/-- The second cursor stands at the first or behind it. -/
def Reaches (c c' : Cursor) : Prop := ∃ taken, c.Takes taken c'

theorem Reaches.refl (c : Cursor) : c.Reaches c := ⟨[], .nil c⟩

theorem Reaches.trans (h : c.Reaches c') (h' : c'.Reaches c'') : c.Reaches c'' := by
  obtain ⟨taken, h⟩ := h
  obtain ⟨taken', h'⟩ := h'
  exact ⟨taken ++ taken', h.append h'⟩

theorem Reaches.offset_le (h : c.Reaches c') : c.position.offset ≤ c'.position.offset := by
  obtain ⟨taken, h⟩ := h
  rw [h.position, Position.offset_afterAll]
  exact Nat.le_add_right _ _

theorem Reaches.isPlaceOf {text : String} (h : (ofString text).Reaches c) :
    c.position.IsPlaceOf text.toList := by
  obtain ⟨taken, hrest, hposition⟩ := h
  rw [hposition, show text.toList = taken ++ c.rest from hrest]
  exact Position.isPlaceOf_afterAll taken c.rest

/-- The place `p` is at the cursor or behind it. -/
def Passes (c : Cursor) (p : Position) : Prop := ∃ c', c.Reaches c' ∧ c'.position = p

theorem Passes.here (c : Cursor) : c.Passes c.position := ⟨c, .refl c, rfl⟩

theorem Reaches.passes {p : Position} (h : c.Reaches c') (hp : c'.Passes p) : c.Passes p := by
  obtain ⟨d, hd, rfl⟩ := hp
  exact ⟨d, h.trans hd, rfl⟩

theorem Passes.isPlaceOf {text : String} {p : Position} (h : (ofString text).Passes p) :
    p.IsPlaceOf text.toList := by
  obtain ⟨c, hc, rfl⟩ := h
  exact hc.isPlaceOf

end Cursor

end PathQuery
