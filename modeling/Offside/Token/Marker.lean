import Offside.Token.Scanner

/-!
# Interpolation in text

A run of text may hold interpolated tags and variables, and inside an interpolated tag the bracket
that ends it. A marker with a backslash in front of it is literal text.
-/

namespace Offside

/-- What interrupts a run of text. -/
inductive Marker where
  /-- A literal hash sign and square bracket. -/
  | escapedTag
  /-- A literal sigil and curly bracket. -/
  | escapedCode (sigil : Char)
  /-- The start of an interpolated tag. -/
  | tag
  /-- The start of an interpolated variable. -/
  | code (sigil : Char)
  /-- The end of the interpolated tag that is being read. -/
  | close
deriving DecidableEq

/-- The marker at the start of a text, and what follows it. -/
def markerAt? : List Char → Option (Marker × List Char)
  | '\\' :: '#' :: '[' :: rest => some (.escapedTag, rest)
  | '\\' :: '#' :: '\x7b' :: rest => some (.escapedCode '#', rest)
  | '\\' :: '!' :: '\x7b' :: rest => some (.escapedCode '!', rest)
  | '#' :: '[' :: rest => some (.tag, rest)
  | '#' :: '\x7b' :: rest => some (.code '#', rest)
  | '!' :: '\x7b' :: rest => some (.code '!', rest)
  | _ => none

/-- The first marker of a text, with the text before it and after it. The closing bracket counts
inside an interpolated tag only, the other markers only where they are allowed. -/
def findMarker (interpolated allowed : Bool) :
    List Char → Option (List Char × Marker × List Char)
  | [] => none
  | character :: rest =>
      if interpolated && character == ']' then
        some ([], .close, rest)
      else
        match if allowed then markerAt? (character :: rest) else none with
        | some (marker, others) => some ([], marker, others)
        | none =>
            (findMarker interpolated allowed rest).map fun (before, found) =>
              (character :: before, found)

namespace Scanner

/-- Add a text token. Each escaped marker in it was one character longer in the template. -/
def pushText (scanner : Scanner) (html : Bool) (value : List Char) (escaped : Nat) : Scanner :=
  let text := String.ofList value
  (scanner.right (value.length + escaped)).push (if html then .html text else .text text)
    scanner.position

/-- The token for an interpolated variable, and the text behind its bracket. -/
def pushCode (scanner : Scanner) (sigil : Char) (text : List Char) :
    Except (Diagnostic TokenFault) (Scanner × List Char) :=
  match Bracket.find '\x7d' text with
  | .unclosed => .error (scanner.fault (.noEndBracket '\x7d'))
  | .mismatched _ expected found => .error (scanner.fault (.bracketMismatch expected found))
  | .closed body rest =>
      let read := ((scanner.right 2).past body).right 1
      .ok (read.push (.code (String.ofList body) true (sigil == '#')) scanner.position, rest)

end Scanner

/-- Read an interpolated tag with a scanner of its own, which stops at the closing bracket. Its
tokens and its column are taken over; what it leaves unread is the rest of the text. -/
def interpolated (inner : Scanning Unit) (body : List Char) : Scanning (List Char) :=
  fun scanner =>
    let opened := (scanner.right 2).push .startInterpolation scanner.position
    match inner (opened.nest body) with
    | .error fault child => .error fault { opened with events := child.events }
    | .ok _ child =>
        let back := { opened with
          position := ⟨opened.position.line, child.position.column⟩
          found := child.found ++ opened.found
          events := child.events }
        .ok child.unread ((back.right 1).push .endInterpolation back.position)

/-- Add the tokens of a run of text. The held text, with its count of escaped markers, waits for
the next text token. The closing bracket of the tag being read ends the run; the text behind it is
unread again. -/
def addText (inner : Scanning Unit) (html : Bool) :
    (budget : Nat) → (value held : List Char) → (escaped : Nat) → Scanning Unit
  | 0, _, _, _ => pure ()
  | budget + 1, value, held, escaped => do
      let scanner ← get
      match findMarker scanner.interpolated scanner.markersAllowed value with
      | none => set (scanner.pushText html (held ++ value) escaped)
      | some (before, .escapedTag, rest) =>
          addText inner html budget rest (held ++ before ++ ['#', '[']) (escaped + 1)
      | some (before, .escapedCode sigil, rest) =>
          addText inner html budget rest (held ++ before ++ [sigil, '\x7b']) (escaped + 1)
      | some (before, .tag, rest) =>
          set (scanner.pushText html (held ++ before) escaped)
          let rest ← interpolated inner rest
          addText inner html budget rest [] 0
      | some (before, .code sigil, rest) =>
          let shown := scanner.pushText html (held ++ before) escaped
          match shown.pushCode sigil rest with
          | .error fault => throw fault
          | .ok (next, rest) =>
              set next
              addText inner html budget rest [] 0
      | some (before, .close, rest) =>
          let value := held ++ before
          let shown := if value.isEmpty then scanner else scanner.pushText html value escaped
          set { shown with ended := true, unread := rest ++ scanner.unread }

/-- Add the tokens of a whole run of text. -/
def addRun (inner : Scanning Unit) (html : Bool) (value : List Char) : Scanning Unit :=
  addText inner html (value.length + 1) value [] 0

end Offside
