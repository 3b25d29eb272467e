import Mathlib.Data.List.Basic
import Offside.Source.Excerpt

/-!
# What an excerpt shows

An excerpt is cut into rows again. Each row but one is a line of the source behind a preamble of one
width, and the remaining one points at a column of the faulty line. The source decides alone whether
there are rows at all: it has to have a line with the number of the span.
-/

namespace Offside.Excerpt

open Text

/-! ### Rows -/

/-- What stands in front of a shown line. It is as wide as in front of all other lines, the number
ends where the bar begins, and an angle bracket stands in it if the line is marked. -/
structure IsPreamble (width number : Nat) (marked : Prop) (preamble : List Char) : Prop where
  length : preamble.length = width
  aligned : ∃ front, preamble = front ++ (toString number).toList ++ "| ".toList ∧
    ∀ character ∈ front, character = ' ' ∨ character = '>'
  marks : '>' ∈ preamble ↔ marked

/-- A row whose only caret stands where a line behind the preamble has the character of a column,
whatever that line is. -/
structure PointsAt (preamble : List Char) (column : Nat) (row : List Char) : Prop where
  single : row.count '^' = 1
  place : ∃ index : Nat, row[index]? = some '^' ∧
    ∀ text : List Char, (preamble ++ text)[index]? = text[column - 1]?

/-- The rows below the faulty line: one that points at the column, if there is a column. -/
def Points (preamble : List Char) (column : Option Nat) (rows : List (List Char)) : Prop :=
  match column with
  | none | some 0 => rows = []
  | some column => ∃ row, rows = [row] ∧ PointsAt preamble column row

/-- The numbers of the lines around a line, of as many as there are. -/
def numbersAround (line total : Nat) : List Nat :=
  let first := max 1 (line - 2)
  List.range' first (min total (line + 2) + 1 - first)

/-- The rows show the lines of a source around the one with a number, each unchanged behind its
preamble, and directly below that one what points at the column. -/
def ShowsAround (line : Nat) (column : Option Nat) (source rows : List (List Char)) : Prop :=
  ∃ (width : Nat) (preamble : Nat → List Char) (pointers : List (List Char)),
    (∀ number ∈ numbersAround line source.length,
      IsPreamble width number (number = line) (preamble number)) ∧
    Points (preamble line) column pointers ∧
    rows = (numbersAround line source.length).flatMap fun number =>
      (preamble number ++ source.getD (number - 1) []) :: if number = line then pointers else []

theorem mem_numbersAround {line total number : Nat} :
    number ∈ numbersAround line total ↔
      1 ≤ number ∧ number ≤ total ∧ line - 2 ≤ number ∧ number ≤ line + 2 := by
  unfold numbersAround
  rw [List.mem_range'_1]
  omega

/-! ### Preambles and pointers -/

theorem length_digits_le {number last : Nat} (le : number ≤ last) :
    (toString number).length ≤ (toString last).length := by
  have positive : 0 < (toString last).length := Nat.length_repr_pos
  refine (Nat.length_repr_le_iff positive).mpr (Nat.lt_of_le_of_lt le ?_)
  exact (Nat.length_repr_le_iff positive).mp (Nat.le_refl _)

theorem isDigit_of_mem_digits {number : Nat} {character : Char}
    (digit : character ∈ (toString number).toList) : character.isDigit = true := by
  rw [Nat.toString_eq_ofList_toDigits, String.toList_ofList] at digit
  exact Nat.isDigit_of_mem_toDigits (by decide) (by decide) digit

theorem not_mem_digits {number : Nat} {character : Char} (noDigit : character.isDigit = false) :
    character ∉ (toString number).toList := by
  intro digit
  rw [isDigit_of_mem_digits digit] at noDigit
  cases noDigit

theorem toList_gutter (width number : Nat) (marked : Bool) :
    (gutter width number marked).toList =
      (if marked then "  > " else "    ").toList ++
        List.replicate (width - (toString number).length) ' ' ++ (toString number).toList ++
        "| ".toList := by
  simp [gutter]

theorem isPreamble_gutter {width number : Nat} (marked : Bool)
    (fits : (toString number).length ≤ width) :
    IsPreamble (width + 6) number (marked = true) (gutter width number marked).toList := by
  have markerLength : (if marked then "  > " else "    ").toList.length = 4 := by
    cases marked <;> rfl
  have noDigit : '>' ∉ (toString number).toList := not_mem_digits (by decide)
  rw [toList_gutter]
  refine ⟨?_, ⟨_, rfl, ?_⟩, ?_⟩
  · simp only [List.length_append, markerLength, List.length_replicate, String.length_toList]
    have barLength : "| ".length = 2 := rfl
    omega
  · cases marked <;> simp
  · simp only [List.mem_append, noDigit, or_false]
    cases marked <;> simp

theorem pointsAt_pointer (preamble : List Char) {column : Nat} (positive : 1 ≤ column) :
    PointsAt preamble column (pointer preamble.length column).toList := by
  have dashes : preamble.length + column - 1 = preamble.length + (column - 1) := by omega
  refine ⟨?_, preamble.length + (column - 1), ?_, fun text => ?_⟩
  · simp [pointer, List.count_replicate]
  · simp [pointer, dashes]
  · rw [List.getElem?_append_right (Nat.le_add_right _ _), Nat.add_sub_cancel_left]

theorem IsPreamble.newline_not_mem {width number : Nat} {marked : Prop} {preamble : List Char}
    (isPreamble : IsPreamble width number marked preamble) : '\n' ∉ preamble := by
  rcases isPreamble.aligned with ⟨front, rfl, blank⟩
  have noFront : '\n' ∉ front := fun newline => by
    rcases blank _ newline with same | same <;> cases same
  have noDigit : '\n' ∉ (toString number).toList := not_mem_digits (by decide)
  rw [List.append_assoc, List.mem_append, List.mem_append]
  rintro (newline | newline | newline)
  · exact noFront newline
  · exact noDigit newline
  · revert newline
    decide

/-! ### The rows of an excerpt -/

/-- What follows a shown line: the pointer, if this is the faulty line. -/
def pointers (column : Option Nat) (width : Nat) : List (List Char) :=
  match column with
  | none | some 0 => []
  | some column => [(pointer width column).toList]

theorem points_pointers (preamble : List Char) (column : Option Nat) :
    Points preamble column (pointers column preamble.length) := by
  match column with
  | none | some 0 => rfl
  | some (column + 1) =>
      exact ⟨_, rfl, pointsAt_pointer preamble (Nat.succ_le_succ (Nat.zero_le column))⟩

theorem newline_not_mem_pointers (column : Option Nat) (width : Nat) :
    ∀ row ∈ pointers column width, '\n' ∉ row := by
  match column with
  | none | some 0 => simp [pointers]
  | some (column + 1) => simp [pointers, pointer]

theorem toList_row (span : Span) (column : Option Nat) (width number : Nat) (line : List Char) :
    (row span column width number line).toList =
      unlines (((gutter width number (number == span.line)).toList ++ line) ::
        if number = span.line then
          pointers column (gutter width number (number == span.line)).length
        else []) := by
  unfold row
  extract_lets marked front pointed
  have pointedList : pointed.toList = unlines (if number = span.line then
      pointers column front.length else []) := by
    dsimp only [pointed, marked]
    match column with
    | none => simp [pointers, unlines]
    | some 0 => simp [pointers, unlines]
    | some (column + 1) => by_cases same : number = span.line <;> simp [pointers, unlines, same]
  rw [unlines_cons, ← pointedList]
  simp [front, marked]

/-- A part of a list, with the numbers of its entries counted from one. -/
theorem zipIdx_slice {α : Type} (default : α) {entries : List α} {first count : Nat}
    (positive : 1 ≤ first) (fits : first - 1 + count ≤ entries.length) :
    ((entries.drop (first - 1)).take count).zipIdx first =
      (List.range' first count).map fun number => (entries.getD (number - 1) default, number) := by
  apply List.ext_getElem
  · simp
    omega
  · intro index _ inRange
    rw [List.length_map, List.length_range'] at inRange
    have shifted : first + index - 1 = first - 1 + index := by omega
    have bound : first - 1 + index < entries.length := by omega
    simp [shifted, bound]

theorem context_eq_empty {span : Span} {column : Option Nat} {source : List (List Char)}
    (outside : ¬(1 ≤ span.line ∧ span.line ≤ source.length)) : context span column source = "" :=
  if_neg outside

/-- The context of a line that the source has shows the lines around it. -/
theorem exists_rows_of_context {span : Span} (column : Option Nat) {source : List (List Char)}
    (oneLine : ∀ line ∈ source, '\n' ∉ line)
    (inside : 1 ≤ span.line ∧ span.line ≤ source.length) :
    ∃ rows, (context span column source).toList = unlines rows ∧ (∀ row ∈ rows, '\n' ∉ row) ∧
      rows ≠ [] ∧ ShowsAround span.line column source rows := by
  unfold context
  rw [if_pos inside]
  extract_lets first last shown width
  have firstEq : first = max 1 (span.line - 2) := Nat.max_comm _ _
  have lastEq : last = min source.length (span.line + 2) := Nat.min_comm _ _
  have numbers : numbersAround span.line source.length =
      List.range' first (last + 1 - first) := by
    rw [numbersAround, firstEq, lastEq]
  have entries : shown.zipIdx first = (numbersAround span.line source.length).map
      fun number => (source.getD (number - 1) [], number) := by
    rw [numbers]
    exact zipIdx_slice [] (by omega) (by omega)
  let preamble (number : Nat) : String := gutter width number (number == span.line)
  have preambles : ∀ number ∈ numbersAround span.line source.length,
      IsPreamble (width + 6) number (number = span.line) (preamble number).toList := by
    intro number shownNumber
    rw [mem_numbersAround] at shownNumber
    have fits : (toString number).length ≤ width := length_digits_le (by omega)
    have isPreamble := isPreamble_gutter (number == span.line) fits
    rwa [beq_iff_eq] at isPreamble
  refine ⟨_, ?_, ?_, ?_, width + 6, fun number => (preamble number).toList,
    pointers column (preamble span.line).length, preambles, ?_, rfl⟩
  · rw [entries, String.toList_join, List.map_map, List.flatMap_map, unlines,
      List.flatMap_assoc]
    refine List.flatMap_congr fun number _ => ?_
    rw [Function.comp_apply, toList_row]
    by_cases same : number = span.line
    · rw [if_pos same, if_pos same, same]
      rfl
    · rw [if_neg same, if_neg same]
      rfl
  · intro row inRows
    rcases List.mem_flatMap.mp inRows with ⟨number, shownNumber, found⟩
    rcases List.mem_cons.mp found with rfl | pointed
    · rw [List.mem_append, not_or]
      refine ⟨(preambles number shownNumber).newline_not_mem, ?_⟩
      rw [mem_numbersAround] at shownNumber
      have bound : number - 1 < source.length := by omega
      rw [List.getD_eq_getElem?_getD, List.getElem?_eq_getElem bound, Option.getD_some]
      exact oneLine _ (List.getElem_mem bound)
    · split at pointed
      · exact newline_not_mem_pointers _ _ row pointed
      · cases pointed
  · have faulty : span.line ∈ numbersAround span.line source.length :=
      mem_numbersAround.mpr ⟨inside.1, inside.2, Nat.sub_le _ _, Nat.le_add_right _ _⟩
    exact List.ne_nil_of_mem (List.mem_flatMap.mpr ⟨span.line, faulty, List.mem_cons_self⟩)
  · have points := points_pointers (preamble span.line).toList column
    rwa [String.length_toList] at points

/-! ### The whole message -/

theorem header_eq (span : Span) (column : Option Nat) :
    header span column = ":".intercalate
      (span.file.toList ++ toString span.line :: (column.map toString).toList) := by
  unfold header
  rcases span with ⟨file, line, start⟩
  cases file <;> cases column <;> simp [String.append_assoc]

/-- A message is shown as its header, then rows, a blank line and the message. There are rows
exactly when the source has the line of the span, and then they show the lines around that one. -/
theorem exists_rows_of_annotate (message : String) (span : Span) (column : Option Nat)
    (source : Option String) :
    ∃ rows : List (List Char),
      (annotate message span column source).toList =
        (":".intercalate
          (span.file.toList ++ toString span.line :: (column.map toString).toList)).toList ++
        unlines rows ++ '\n' :: '\n' :: message.toList ∧
      (∀ row ∈ rows, '\n' ∉ row) ∧
      (rows ≠ [] ↔ ∃ text ∈ source, 1 ≤ span.line ∧ span.line ≤ (lines text.toList).length) ∧
      ∀ text ∈ source, rows ≠ [] → ShowsAround span.line column (lines text.toList) rows := by
  have blankLine : "\n\n".toList = ['\n', '\n'] := rfl
  cases source with
  | none => exact ⟨[], by simp [annotate, header_eq, unlines, blankLine], by simp⟩
  | some text =>
      by_cases inside : 1 ≤ span.line ∧ span.line ≤ (lines text.toList).length
      · rcases exists_rows_of_context column newline_not_mem_of_mem_lines inside with
          ⟨rows, shown, oneLine, someRow, shows⟩
        refine ⟨rows, ?_, oneLine, by simp [someRow, inside], ?_⟩
        · simp [annotate, header_eq, shown, blankLine]
        · rintro _ ⟨⟩ _
          exact shows
      · refine ⟨[], ?_, by simp, by simpa using inside, by simp⟩
        simp [annotate, header_eq, context_eq_empty inside, unlines, blankLine]

/-- The number of digits changes inside of the excerpt. -/
example : annotate "m" ⟨none, 9, 1⟩ (some 1) (some "1\n2\n3\n4\n5\n6\n7\n8\n9\n10\n11\n12") =
    "9:1\n     7| 7\n     8| 8\n  >  9| 9\n--------^\n    10| 10\n    11| 11\n\nm" := by
  decide +kernel

end Offside.Excerpt
