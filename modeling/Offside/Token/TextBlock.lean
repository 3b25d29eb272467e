import Offside.Token.Indentation
import Offside.Token.Keyword
import Offside.Token.Marker

/-!
# Text

A run of text stands behind a name or a bar. A text block is the lines that are indented deeper
than the line it belongs to; they are text whatever they look like, less the indentation that all
of them share.
-/

namespace Offside

open Text

/-- A line of a text block. -/
structure BlockLine where
  text : List Char
  /-- Whether the line has the whole indentation of the block, and not only blanks. -/
  indented : Bool

/-- The lines of a text block, or the reason to look again. -/
inductive BlockScan where
  /-- The lines that belong to the block, and those that follow it. -/
  | taken (block : List BlockLine) (rest : List (List Char))
  /-- A line that belongs to the block is indented less than the others. -/
  | shallower (width : Nat)

/-- The scan of a block that has one more line in front. -/
def BlockScan.cons (line : BlockLine) : BlockScan → BlockScan
  | taken block rest => taken (line :: block) rest
  | shallower width => shallower width

/-- Take the lines of a block with a certain width: those that have at least its indentation, and
blank ones. The block ends at a line of the enclosing level. -/
def takeBlock (unit : IndentUnit) (level width : Nat) : List (List Char) → BlockScan
  | [] => .taken [] []
  | line :: rest =>
      let found := indentWidth unit line
      if width ≤ found then
        (takeBlock unit level width rest).cons ⟨line.drop width, true⟩
      else if isBlank line then
        (takeBlock unit level width rest).cons ⟨line.drop width, false⟩
      else if level < found then
        .shallower found
      else
        .taken [] (line :: rest)

/-- Without the empty lines at the end. -/
def dropEmptyEnd (block : List BlockLine) : List BlockLine :=
  (block.reverse.dropWhile (·.text.isEmpty)).reverse

/-- Add the tokens of the lines of a block, `first` telling whether none came before. -/
def addLines (inner : Scanning Unit) (width : Nat) : (first : Bool) → List BlockLine →
    Scanning Unit
  | _, [] => pure ()
  | first, line :: rest => do
      let start := (← get).nextLine
      let inside := if line.indented then start.right width else start
      set (if first then inside else inside.push .newline start.position)
      addRun inner false line.text
      addLines inner width false rest

namespace Rule

/-- A text block. When a line turns out to be indented less than the first one, the block is read
again with that width; the budget bounds how often. -/
def textBlock (blank : Scanning Bool) (inner : Scanning Unit) :
    (budget : Nat) → (requested : Option Nat) → Scanning Bool
  | 0, _ => pure false
  | budget + 1, requested => do
      repeatRule blank ((← get).unread.length + 1)
      let scanned ← modifyGet fun scanner =>
        match scanner.measure? with
        | some (width, measured) => (some width, measured)
        | none => (none, scanner)
      match requested <|> scanned with
      | none => return false
      | some width =>
          let scanner ← get
          if width ≤ scanner.top then
            return false
          match takeBlock (scanner.unit.getD .space) scanner.top width
              (lines (scanner.unread.drop 1)) with
          | .shallower found => textBlock blank inner budget (some found)
          | .taken block rest =>
              let opened := scanner.pushHere .startTextBlock
              set { opened with unread := unlines rest }
              addLines inner width true (if rest.isEmpty then dropEmptyEnd block else block)
              modify (·.pushHere .endTextBlock)
              return true

/-- The rest of a line as text: behind a bar, or behind a space. -/
def text (inner : Scanning Unit) : Scanning Bool := do
  let scanner ← get
  let line := firstLine scanner.unread
  let run (skipped : Nat) (value : List Char) : Scanning Bool := do
    set ((scanner.drop line.length).right skipped)
    addRun inner false value
    return true
  match line with
  | '|' :: ' ' :: first :: rest => run 2 (first :: rest)
  | '|' :: rest => run 1 rest
  | [' '] => run 0 [' ']
  | ' ' :: rest => run 1 rest
  | _ => return false

/-- A line that begins with an angle bracket is copied to the page. -/
def html (inner : Scanning Unit) : Scanning Bool := do
  let scanner ← get
  match scanner.unread with
  | '<' :: _ =>
      let line := firstLine scanner.unread
      set (scanner.drop line.length)
      addRun inner true line
      return true
  | _ => return false

/-- A comment, with the text block that may belong to it. A dash hides it from the page, and then
its text has no interpolations. -/
def comment (block : Scanning Bool) : Scanning Bool := do
  let scanner ← get
  match scanner.unread with
  | '/' :: '/' :: rest =>
      let line := firstLine rest
      let (value, buffered) : List Char × Bool :=
        match line with
        | '-' :: hidden => (hidden, false)
        | _ => (line, true)
      set ({ scanner with markersAllowed := buffered }.emit
        (.comment (String.ofList value) buffered) (2 + line.length))
      let _ ← block
      return true
  | _ => return false

/-- A dot at the end of a line announces a text block. -/
def dot (block : Scanning Bool) : Scanning Bool := do
  let scanner ← get
  match scanner.unread with
  | '.' :: rest =>
      match scanner.endOfLine? ['.'] rest .dot with
      | none => return false
      | some (token, next) =>
          set (next.pushToken token)
          let _ ← block
          return true
  | _ => return false

/-- The name of a filter, in quotes or plain, and how many characters it takes. -/
def filterName? : List Char → Option (List Char × Nat)
  | [] => none
  | first :: rest =>
      let name := (first :: rest).takeWhile isWordOrDash
      if !name.isEmpty then
        some (name, name.length)
      else if first == '\x27' || first == '\x22' then
        match splitLast? first (firstLine rest) with
        | none | some ([], _) => none
        | some (quoted, _) => some (quoted, quoted.length + 2)
      else
        none

/-- A filter with its attributes; outside an include also the text block it works on, in which
there are no interpolations. -/
def filter (attributes : Scanning Bool) (block : Option (Scanning Bool)) : Scanning Bool := do
  let scanner ← get
  match scanner.unread with
  | ':' :: rest =>
      match filterName? rest with
      | none => return false
      | some (name, length) =>
          set (scanner.emit (.filter (String.ofList name)) (1 + length))
          let _ ← attributes
          match block with
          | none => return true
          | some block =>
              modify fun scanner => { scanner with markersAllowed := false }
              let _ ← block
              return true
  | _ => return false

end Rule

end Offside
