/-!
# Positions and spans

A position is a line and a column, both counted from one and in characters. A span is where a
token, a node or an attribute starts, together with the file it was written in, when that is known.
A line of zero stands for "no particular line": hand-made trees use it.
-/

namespace Offside

/-- A line and a column, both counted from one. -/
structure Position where
  line : Nat
  column : Nat
deriving DecidableEq, Inhabited

namespace Position

/-- Move `count` columns to the right on the same line. -/
def right (position : Position) (count : Nat) : Position :=
  { position with column := position.column + count }

/-- The position after one more character: a newline starts the next line. -/
def after (position : Position) (character : Char) : Position :=
  if character = '\n' then ⟨position.line + 1, 1⟩ else position.right 1

/-- The position after a whole text. -/
def past (position : Position) (text : List Char) : Position :=
  text.foldl after position

@[simp]
theorem past_nil (position : Position) : position.past [] = position := rfl

@[simp]
theorem past_cons (position : Position) (character : Char) (text : List Char) :
    position.past (character :: text) = (position.after character).past text := rfl

theorem past_append (position : Position) (front back : List Char) :
    position.past (front ++ back) = (position.past front).past back := by
  simp [past]

end Position

/-- The place where something starts, and the file it stands in. -/
structure Span where
  file : Option String := none
  line : Nat := 0
  column : Nat := 0
deriving DecidableEq, Inhabited

namespace Span

/-- The span that starts at `position` of `file`. -/
def start (file : Option String) (position : Position) : Span :=
  ⟨file, position.line, position.column⟩

/-- Where the span starts, without its file. -/
def position (span : Span) : Position :=
  ⟨span.line, span.column⟩

end Span

end Offside
