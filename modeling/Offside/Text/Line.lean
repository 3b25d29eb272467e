/-!
# Lines

Text is cut at newlines. A text always has at least one line, and a final newline opens a last,
empty one. Templates may be written with any of the three customary line ends; they are read with
`'\n'` alone.
-/

namespace Offside.Text

/-- The byte order mark, which may open a file and is not part of its text. -/
def byteOrderMark : Char := '\uFEFF'

/-- The text without an opening byte order mark. -/
def dropMark : List Char → List Char
  | character :: rest => if character = byteOrderMark then rest else character :: rest
  | [] => []

/-- Write every line end, `CR LF` or a lone `CR`, as a newline. -/
def normalizeNewlines : List Char → List Char
  | '\r' :: '\n' :: rest => '\n' :: normalizeNewlines rest
  | '\r' :: rest => '\n' :: normalizeNewlines rest
  | character :: rest => character :: normalizeNewlines rest
  | [] => []

/-- Put a character in front of the first line. -/
def consFirst (character : Char) : List (List Char) → List (List Char)
  | [] => [[character]]
  | line :: rest => (character :: line) :: rest

/-- The lines of a text, without their newlines. -/
def lines : List Char → List (List Char)
  | [] => [[]]
  | character :: rest =>
      if character = '\n' then [] :: lines rest else consFirst character (lines rest)

/-- The text before the first newline. -/
def firstLine (text : List Char) : List Char :=
  text.takeWhile (· ≠ '\n')

/-- Each line with a newline in front of it. -/
def unlines (rows : List (List Char)) : List Char :=
  rows.flatMap ('\n' :: ·)

theorem lines_ne_nil (text : List Char) : lines text ≠ [] := by
  induction text with
  | nil => simp [lines]
  | cons character rest _ =>
    unfold lines
    split
    · simp
    · cases lines rest <;> simp [consFirst]

/-- Cutting at newlines loses nothing: the newlines are where the cuts are. -/
theorem unlines_lines (text : List Char) : unlines (lines text) = '\n' :: text := by
  induction text with
  | nil => rfl
  | cons character rest ih =>
    unfold lines
    split
    · next newline => simp [unlines, newline, ← ih]
    · revert ih
      cases lines rest with
      | nil => simp [unlines]
      | cons line others => simp [unlines, consFirst]

theorem unlines_cons (line : List Char) (rest : List (List Char)) :
    unlines (line :: rest) = '\n' :: (line ++ unlines rest) := by
  simp [unlines]

theorem unlines_append (first second : List (List Char)) :
    unlines (first ++ second) = unlines first ++ unlines second := by
  simp [unlines]

theorem lines_append_newline_of_oneLine {front : List Char} (oneLine : '\n' ∉ front)
    (text : List Char) : lines (front ++ '\n' :: text) = front :: lines text := by
  induction front with
  | nil => simp [lines]
  | cons character rest ih =>
      rw [List.mem_cons, not_or] at oneLine
      rw [List.cons_append, lines, if_neg (Ne.symm oneLine.1), ih oneLine.2]
      rfl

theorem newline_not_mem_of_mem_lines {text : List Char} : ∀ line ∈ lines text, '\n' ∉ line := by
  induction text with
  | nil => simp [lines]
  | cons character rest ih =>
      unfold lines
      split
      · rw [List.forall_mem_cons]
        exact ⟨List.not_mem_nil, ih⟩
      · next noNewline =>
          cases rows : lines rest with
          | nil => exact absurd rows (lines_ne_nil rest)
          | cons line others =>
              rw [rows, List.forall_mem_cons] at ih
              rw [consFirst, List.forall_mem_cons]
              refine ⟨?_, ih.2⟩
              rw [List.mem_cons, not_or]
              exact ⟨fun same => noNewline same.symm, ih.1⟩

theorem length_le_of_mem_lines {row text : List Char} (inLines : row ∈ lines text) :
    row.length ≤ text.length := by
  rcases List.append_of_mem inLines with ⟨front, rest, rows⟩
  have whole := congrArg List.length (unlines_lines text)
  rw [rows] at whole
  simp only [unlines, List.flatMap_append, List.flatMap_cons, List.length_append,
    List.length_cons] at whole
  omega

end Offside.Text
