import Offside.Source.Span
import Offside.Text.Line

/-!
# Annotated excerpts

Every message about a template is shown with a header that names the place, and, when the text of
the template is known, with the faulty line between up to two lines of context on either side. The
faulty line is marked, and a row below it points at the column.
-/

namespace Offside.Excerpt

/-- How many lines are shown before and after the faulty one. -/
def contextLines : Nat := 2

/-- `file:line:column`, without the parts that are not known. -/
def header (span : Span) (column : Option Nat) : String :=
  (match span.file with
    | some file => file ++ ":"
    | none => "") ++
  toString span.line ++
  (match column with
    | some column => ":" ++ toString column
    | none => "")

/-- The marker, the right-aligned number and the bar in front of a shown line. -/
def gutter (width number : Nat) (marked : Bool) : String :=
  let digits := toString number
  (if marked then "  > " else "    ") ++
    String.ofList (List.replicate (width - digits.length) ' ') ++ digits ++ "| "

/-- The row that points at a column of the line above it. -/
def pointer (gutterWidth column : Nat) : String :=
  String.ofList (List.replicate (gutterWidth + column - 1) '-') ++ "^"

/-- One shown line, followed by the pointer when it is the faulty one. -/
def row (span : Span) (column : Option Nat) (width number : Nat) (line : List Char) : String :=
  let marked := number == span.line
  let front := gutter width number marked
  let pointed :=
    match column with
    | some column =>
        if marked && 1 ≤ column then "\n" ++ pointer front.length column else ""
    | none => ""
  "\n" ++ front ++ String.ofList line ++ pointed

/-- The lines around the place of the span, nothing if the source has no such line. -/
def context (span : Span) (column : Option Nat) (rows : List (List Char)) : String :=
  if 1 ≤ span.line ∧ span.line ≤ rows.length then
    let first := max (span.line - contextLines) 1
    let last := min (span.line + contextLines) rows.length
    let shown := (rows.drop (first - 1)).take (last + 1 - first)
    let width := (toString last).length
    String.join ((shown.zipIdx first).map fun (line, number) => row span column width number line)
  else
    ""

/-- The message under its header, with the excerpt in between when there is a source. -/
def annotate (message : String) (span : Span) (column : Option Nat) (source : Option String) :
    String :=
  header span column ++
  (match source with
    | some source => context span column (Text.lines source.toList)
    | none => "") ++
  "\n\n" ++ message

end Offside.Excerpt
