import CommandScript.Symbol

/-!
# Places in a source text

A position counts lines and, within a line, characters, both from one. A cursor is the text that is
still to be read together with the position of its first character. Whatever moves a cursor drops
characters from the front of its text and counts them (`Position.after`).
-/

namespace CommandScript.Source

/-- A line and a column, both counted from one. -/
structure Position where
  line : Nat
  column : Nat
deriving DecidableEq, Repr

/-- The position of the first character of a text. -/
def Position.start : Position :=
  ⟨1, 1⟩

/-- The position behind one character. -/
def Position.next (position : Position) (c : Char) : Position :=
  if c = '\n' then ⟨position.line + 1, 1⟩ else ⟨position.line, position.column + 1⟩

/-- The position behind a text. -/
def Position.after (position : Position) (text : List Char) : Position :=
  text.foldl Position.next position

/-- What is left of a source text, and where it starts. -/
structure Cursor where
  rest : List Char
  position : Position
deriving DecidableEq, Repr

/-- The cursor in front of a source text. -/
def Cursor.ofText (text : List Char) : Cursor :=
  ⟨text, Position.start⟩

/-- The cursor behind the next `count` characters, or at the end. -/
def Cursor.advance (cursor : Cursor) (count : Nat) : Cursor :=
  ⟨cursor.rest.drop count, cursor.position.after (cursor.rest.take count)⟩

/-- The cursor behind all characters in front that satisfy a condition. -/
def Cursor.skip (cursor : Cursor) (condition : Char → Bool) : Cursor :=
  ⟨cursor.rest.dropWhile condition, cursor.position.after (cursor.rest.takeWhile condition)⟩

/-- Some of the text has been read and the rest starts where it should. -/
def Cursor.Behind (cursor : Cursor) (consumed : List Char) (origin : Cursor) : Prop :=
  origin.rest = consumed ++ cursor.rest ∧ cursor.position = origin.position.after consumed

/-- Positions may be counted piece by piece. -/
theorem Position.after_append (position : Position) (front back : List Char) :
    position.after (front ++ back) = (position.after front).after back := by
  simp [Position.after]

theorem Cursor.Behind.refl (cursor : Cursor) : cursor.Behind [] cursor :=
  ⟨rfl, rfl⟩

/-- What is read in two parts is read in one. -/
theorem Cursor.Behind.trans {a b c : Cursor} {front back : List Char} (hfront : b.Behind front a)
    (hback : c.Behind back b) : c.Behind (front ++ back) a := by
  constructor
  · rw [hfront.1, hback.1, List.append_assoc]
  · rw [hback.2, hfront.2, Position.after_append]

/-- A cursor that advances leaves behind what it has passed. -/
theorem Cursor.behind_advance (cursor : Cursor) (count : Nat) :
    (cursor.advance count).Behind (cursor.rest.take count) cursor :=
  ⟨(List.take_append_drop count cursor.rest).symm, rfl⟩

/-- A cursor that skips leaves behind the characters that meet the condition. -/
theorem Cursor.behind_skip (cursor : Cursor) (condition : Char → Bool) :
    (cursor.skip condition).Behind (cursor.rest.takeWhile condition) cursor :=
  ⟨List.takeWhile_append_dropWhile.symm, rfl⟩

end CommandScript.Source
