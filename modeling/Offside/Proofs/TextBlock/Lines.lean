import Mathlib.Data.List.DropRight
import Offside.Token.TextBlock

/-!
# Which lines a text block takes

A text block takes the lines up to the first that is neither blank nor indented deeper than the
line it belongs to. They are scanned with the width of one of them. With the smallest of their
widths the scan takes them all, and with any other it comes to a line that is indented less.
-/

namespace Offside

open Text

/-- A line of spaces and tabs alone. -/
def isBlankRow (row : List Char) : Bool :=
  row.all isIndentation

/-- Whether a line can be part of a block below a level: it is blank, or indented deeper. -/
def isBlockRow (unit : IndentUnit) (level : Nat) (row : List Char) : Bool :=
  isBlankRow row || level < indentWidth unit row

section

variable (unit : IndentUnit) (level : Nat) (rows : List (List Char))

/-- The lines of a block that begins with the first of some lines. -/
def blockRows : List (List Char) :=
  rows.takeWhile (isBlockRow unit level)

/-- The lines behind a block that begins with the first of some lines. -/
def rowsBehind : List (List Char) :=
  rows.dropWhile (isBlockRow unit level)

/-- How far the lines are indented that are not blank. -/
def rowWidths : List Nat :=
  (rows.filter (! isBlankRow ·)).map (indentWidth unit)

/-- The indentation that all lines share which are not blank: the smallest one. -/
def sharedWidth : Nat :=
  (rowWidths unit rows).min?.getD 0

/-- What a block holds: its lines without the indentation that they share. At the end of the
template the block ends with its last line that is not empty then. -/
def blockTexts : List (List Char) :=
  let texts := (blockRows unit level rows).map
    (·.drop (sharedWidth unit (blockRows unit level rows)))
  if (rowsBehind unit level rows).isEmpty then texts.rdropWhile List.isEmpty else texts

end

example : blockTexts .space 0 ["    a".toList, [], "  b".toList, []] =
    ["  a".toList, [], "b".toList] := by decide

variable {unit : IndentUnit} {level width : Nat} {row : List Char} {rows : List (List Char)}

theorem eq_append_of_lines_eq {text : List Char} (found : lines text = row :: rows) :
    text = row ++ unlines rows := by
  have whole := unlines_lines text
  rw [found, unlines_cons] at whole
  exact (List.cons.inj whole).2.symm

/-- Behind the first line of a text comes the text of the other lines. -/
theorem exists_of_lines_eq {text next : List Char} (found : lines text = row :: next :: rows) :
    ∃ behind, text = row ++ '\n' :: behind ∧ lines behind = next :: rows := by
  have oneLine : '\n' ∉ row := newline_not_mem_of_mem_lines row (found ▸ List.mem_cons_self)
  have split := eq_append_of_lines_eq found
  rw [unlines_cons] at split
  refine ⟨next ++ unlines rows, split, ?_⟩
  rw [split, lines_append_newline_of_oneLine oneLine] at found
  exact (List.cons.inj found).2

theorem indentWidth_append_unlines (unit : IndentUnit) (row : List Char)
    (rows : List (List Char)) : indentWidth unit (row ++ unlines rows) = indentWidth unit row := by
  unfold indentWidth
  induction row with
  | nil =>
      cases rows with
      | nil => rfl
      | cons next others => cases unit <;> simp [unlines_cons, IndentUnit.character]
  | cons character row ih => simp only [List.cons_append, List.takeWhile_cons]; split <;> simp [ih]

theorem isBlank_of_isBlankRow (blank : isBlankRow row = true) : isBlank row = true := by
  rw [isBlankRow, List.all_eq_true] at blank
  rw [isBlank, List.all_eq_true]
  intro character mem
  have indentation := blank character mem
  simp only [isIndentation, Bool.or_eq_true, beq_iff_eq] at indentation
  rcases indentation with rfl | rfl <;> rfl

theorem mem_rowWidths : width ∈ rowWidths unit rows ↔
    ∃ row ∈ rows, isBlankRow row = false ∧ indentWidth unit row = width := by
  simp [rowWidths, and_assoc]

/-- The lines of a block are indented deeper than the level, unless they are blank. -/
theorem lt_of_mem_rowWidths (mem : width ∈ rowWidths unit (blockRows unit level rows)) :
    level < width := by
  rcases mem_rowWidths.mp mem with ⟨row, inBlock, noBlank, rfl⟩
  have fits := List.mem_takeWhile_imp inBlock
  simpa [isBlockRow, noBlank] using fits

theorem sharedWidth_eq_of_forall_le (mem : width ∈ rowWidths unit rows)
    (least : ∀ other ∈ rowWidths unit rows, width ≤ other) : sharedWidth unit rows = width := by
  have found : (rowWidths unit rows).min? = some width := by
    rw [List.min?_eq_some_iff]
    exact ⟨mem, least⟩
  rw [sharedWidth, found, Option.getD_some]

theorem blockRows_cons_of_pos (fits : isBlockRow unit level row = true) :
    blockRows unit level (row :: rows) = row :: blockRows unit level rows :=
  List.takeWhile_cons_of_pos fits

theorem rowsBehind_cons_of_pos (fits : isBlockRow unit level row = true) :
    rowsBehind unit level (row :: rows) = rowsBehind unit level rows :=
  List.dropWhile_cons_of_pos fits

theorem mem_rowWidths_cons : width ∈ rowWidths unit (row :: rows) ↔
    isBlankRow row = false ∧ indentWidth unit row = width ∨ width ∈ rowWidths unit rows := by
  simp only [mem_rowWidths, List.mem_cons, or_and_right, exists_or, exists_eq_left]

/-! ### The scan -/

/-- A line as the scan with a certain width takes it. -/
def blockLine (unit : IndentUnit) (width : Nat) (row : List Char) : BlockLine :=
  ⟨row.drop width, width ≤ indentWidth unit row⟩

theorem takeBlock_cons_of_fits (fits : width ≤ indentWidth unit row ∨ isBlank row = true) :
    takeBlock unit level width (row :: rows) =
      (takeBlock unit level width rows).cons (blockLine unit width row) := by
  by_cases wide : width ≤ indentWidth unit row
  · simp [takeBlock, blockLine, wide]
  · simp [takeBlock, blockLine, wide, fits.resolve_left wide]

section

variable (solid : ∀ row ∈ rows, isBlankRow row = false → isBlank row = false)

include solid

/-- A width that all lines of the block have takes them all. -/
theorem takeBlock_eq_taken (deep : level < width)
    (least : ∀ other ∈ rowWidths unit (blockRows unit level rows), width ≤ other) :
    takeBlock unit level width rows =
      .taken ((blockRows unit level rows).map (blockLine unit width))
        (rowsBehind unit level rows) := by
  induction rows with
  | nil => rfl
  | cons row rows ih =>
      rcases List.forall_mem_cons.mp solid with ⟨solidRow, solidRows⟩
      by_cases fits : isBlockRow unit level row = true
      · rw [blockRows_cons_of_pos fits] at least ⊢
        have taken : width ≤ indentWidth unit row ∨ isBlank row = true := by
          cases blank : isBlankRow row with
          | true => exact .inr (isBlank_of_isBlankRow blank)
          | false => exact .inl (least _ (mem_rowWidths_cons.mpr (.inl ⟨blank, rfl⟩)))
        have leastRows := fun other mem => least other (mem_rowWidths_cons.mpr (.inr mem))
        rw [takeBlock_cons_of_fits taken, ih solidRows leastRows, rowsBehind_cons_of_pos fits]
        rfl
      · simp only [isBlockRow, Bool.or_eq_true, decide_eq_true_eq, not_or, Bool.not_eq_true]
          at fits
        have narrow : ¬width ≤ indentWidth unit row := by omega
        simp [takeBlock, blockRows, rowsBehind, isBlockRow, narrow, solidRow fits.1, fits]

/-- With a width that some line of the block does not have the scan stops at such a line. -/
theorem exists_takeBlock_eq_shallower
    (narrow : ∃ other ∈ rowWidths unit (blockRows unit level rows), other < width) :
    ∃ found ∈ rowWidths unit (blockRows unit level rows), found < width ∧
      takeBlock unit level width rows = .shallower found := by
  induction rows with
  | nil => simp [blockRows, rowWidths] at narrow
  | cons row rows ih =>
      rcases List.forall_mem_cons.mp solid with ⟨solidRow, solidRows⟩
      by_cases fits : isBlockRow unit level row = true
      · rw [blockRows_cons_of_pos fits] at narrow ⊢
        by_cases taken : width ≤ indentWidth unit row ∨ isBlank row = true
        · have narrowRows : ∃ other ∈ rowWidths unit (blockRows unit level rows),
              other < width := by
            rcases narrow with ⟨other, mem, less⟩
            rcases mem_rowWidths_cons.mp mem with ⟨noBlank, rfl⟩ | mem
            · rcases taken with wide | blank
              · omega
              · simp [solidRow noBlank] at blank
            · exact ⟨other, mem, less⟩
          rcases ih solidRows narrowRows with ⟨found, mem, less, stopped⟩
          refine ⟨found, mem_rowWidths_cons.mpr (.inr mem), less, ?_⟩
          rw [takeBlock_cons_of_fits taken, stopped, BlockScan.cons]
        · rw [not_or, Bool.not_eq_true] at taken
          have noBlank : isBlankRow row = false := by
            rw [← Bool.not_eq_true]
            intro blank
            simp [isBlank_of_isBlankRow blank] at taken
          have deeper : level < indentWidth unit row := by
            simpa [isBlockRow, noBlank] using fits
          refine ⟨_, mem_rowWidths_cons.mpr (.inl ⟨noBlank, rfl⟩), by omega, ?_⟩
          simp [takeBlock, taken, deeper]
      · simp [blockRows, fits, rowWidths] at narrow

end

/-! ### Texts -/

theorem map_text_dropEmptyEnd (block : List BlockLine) :
    (dropEmptyEnd block).map BlockLine.text =
      (block.map BlockLine.text).rdropWhile List.isEmpty := by
  simp only [dropEmptyEnd, List.rdropWhile, ← List.map_reverse, List.dropWhile_map]
  rfl

theorem map_text_blockLine :
    (rows.map (blockLine unit width)).map BlockLine.text = rows.map (·.drop width) := by
  rw [List.map_map]
  rfl

theorem drop_ne_nil (solid : isBlankRow row = false)
    (within : width ≤ indentWidth unit row) : row.drop width ≠ [] := by
  intro empty
  have whole : row.takeWhile (· == unit.character) = row :=
    (List.takeWhile_prefix _).eq_of_length_le
      (Nat.le_trans (List.drop_eq_nil_iff.mp empty) within)
  have blank : isBlankRow row = true := by
    rw [isBlankRow, List.all_eq_true]
    intro character mem
    rw [← whole] at mem
    have same := List.mem_takeWhile_imp mem
    cases unit <;> simp_all [IndentUnit.character, isIndentation]
  simp [blank] at solid

theorem sharedWidth_le (mem : width ∈ rowWidths unit rows) :
    sharedWidth unit rows ≤ width := by
  cases found : (rowWidths unit rows).min? with
  | none => simp [List.min?_eq_none_iff.mp found] at mem
  | some least =>
      rw [sharedWidth, found]
      exact (List.min?_eq_some_iff.mp found).2 width mem

/-- The first line of a block is not empty without the indentation that the lines share. -/
theorem blockTexts_ne_nil (solid : isBlankRow row = false)
    (deeper : level < indentWidth unit row) (rows : List (List Char)) :
    blockTexts unit level (row :: rows) ≠ [] := by
  have fits : isBlockRow unit level row = true := by simp [isBlockRow, deeper]
  have least : sharedWidth unit (row :: blockRows unit level rows) ≤ indentWidth unit row :=
    sharedWidth_le (mem_rowWidths_cons.mpr (.inl ⟨solid, rfl⟩))
  have someText := drop_ne_nil solid least
  simp only [blockTexts, blockRows_cons_of_pos fits, List.map_cons]
  split
  · intro empty
    rw [List.rdropWhile_eq_nil_iff] at empty
    simpa [someText] using empty _ List.mem_cons_self
  · exact List.cons_ne_nil _ _

theorem map_text_eq_blockTexts (unit : IndentUnit) (level : Nat) (rows : List (List Char)) :
    (if (rowsBehind unit level rows).isEmpty then
        dropEmptyEnd ((blockRows unit level rows).map
          (blockLine unit (sharedWidth unit (blockRows unit level rows))))
      else (blockRows unit level rows).map
        (blockLine unit (sharedWidth unit (blockRows unit level rows)))).map BlockLine.text =
      blockTexts unit level rows := by
  rw [blockTexts, apply_ite (List.map BlockLine.text), map_text_dropEmptyEnd, map_text_blockLine]

end Offside
