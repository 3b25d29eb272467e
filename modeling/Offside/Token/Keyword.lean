import Offside.Token.Scanner

/-!
# Keywords

The rules for lines that begin with a keyword, for the ends of lines and of the text, and for
paths.
-/

namespace Offside

open Text

namespace Scanner

/-- A token that must end its line, or stand in front of a colon. The spaces in front of it are not
part of it; the blanks behind it are read but the position stays at its end. -/
def endOfLine? (scanner : Scanner) (matched rest : List Char) (kind : TokenKind) :
    Option (Token × Scanner) :=
  let finish (unread : List Char) : Token × Scanner :=
    let start := scanner.position.right (matched.takeWhile (· == ' ')).length
    let stop := scanner.position.right matched.length
    (⟨kind, .start scanner.file start, stop⟩, { scanner with unread := unread, position := stop })
  match rest with
  | ':' :: _ => some (finish rest)
  | _ =>
      match rest.dropWhile isIndentation with
      | [] => some (finish [])
      | '\n' :: others => some (finish ('\n' :: others))
      | _ => none

end Scanner

namespace Rule

/-- A keyword that must end its line. -/
def keywordLine (keyword : String) (kind : TokenKind) : SimpleRule := fun scanner => do
  let rest ← afterKeyword? keyword scanner.unread
  let (token, next) ← scanner.endOfLine? keyword.toList rest kind
  return next.pushToken token

/-- A newline and the blanks up to the next newline. -/
def blankLine : SimpleRule := fun scanner =>
  match scanner.unread with
  | '\n' :: rest =>
      match rest.dropWhile isIndentation with
      | '\n' :: others => some { scanner.nextLine with unread := '\n' :: others }
      | _ => none
  | _ => none

/-- The end of the text closes all levels. -/
def endOfInput : CheckedRule := fun scanner =>
  if scanner.unread.isEmpty then
    if scanner.interpolated then
      .error (scanner.fault .unclosedInterpolation)
    else
      let closed := scanner.levels.foldl (fun closed _ => closed.pushHere .outdent) scanner
      .ok (some { closed.pushHere .eos with levels := [], ended := true })
  else
    .ok none

/-- The bracket that closes the interpolated tag being read. -/
def endInterpolation : SimpleRule := fun scanner =>
  match scanner.interpolated, scanner.unread with
  | true, ']' :: rest => some { scanner with unread := rest, ended := true }
  | _, _ => none

/-- Whether the text starts with the keyword, and one of the given characters or nothing at all
follows. -/
def opensWith (keyword : String) (stops : List Char) (text : List Char) : Bool :=
  match afterKeyword? keyword text with
  | none => false
  | some [] => true
  | some (next :: _) => stops.contains next

/-- A doctype takes the rest of its line. -/
def doctype : SimpleRule := fun scanner =>
  if opensWith "doctype" [' ', '\n'] scanner.unread then
    let line := firstLine scanner.unread
    let value := String.ofList (trim (line.drop "doctype".length))
    some (scanner.emit (.doctype value) line.length)
  else
    none

/-- The keyword for the default content of a block; nothing else may stand on its line. -/
def defaultKeyword : CheckedRule := fun scanner =>
  match keywordLine "default" .default scanner with
  | some next => .ok (some next)
  | none =>
      if atWordBoundary "default" scanner.unread then
        .error (scanner.fault .defaultWithExpression)
      else
        .ok none

/-- A keyword and at least one space: what was matched, and what follows. -/
def keywordSpaces? (keyword : String) (text : List Char) : Option (List Char × List Char) := do
  let rest ← afterKeyword? keyword text
  let spaces := rest.takeWhile (· == ' ')
  if spaces.isEmpty then
    none
  else
    some (keyword.toList ++ spaces, rest.dropWhile (· == ' '))

/-- The text in front of a comment. -/
def beforeComment : List Char → List Char
  | '/' :: '/' :: _ => []
  | character :: rest => character :: beforeComment rest
  | [] => []

/-- What introduces a named block: its keyword, perhaps after the word `block`. -/
def blockHead? (keyword : String) (afterBlock : Bool) (text : List Char) :
    Option (List Char × List Char) :=
  let long? : Option (List Char × List Char) :=
    if afterBlock then do
      let (front, rest) ← keywordSpaces? "block" text
      let (matched, rest) ← keywordSpaces? keyword rest
      some (front ++ matched, rest)
    else
      none
  long? <|> keywordSpaces? keyword text

/-- A named block: `block name`, `append name` or `prepend name`. A comment may follow the name. -/
def namedBlock (keyword : String) (afterBlock : Bool) (mode : BlockMode) : SimpleRule :=
  fun scanner => do
    let (head, rest) ← blockHead? keyword afterBlock scanner.unread
    let label := beforeComment (firstLine rest)
    let name := trim label
    if name.isEmpty then
      none
    else
      let matched := dropEndWhile isSeparator label
      let named := (scanner.right (head.length + matched.length)).push
        (.namedBlock (String.ofList name) mode) scanner.position
      some { named.right (label.length - matched.length) with
        unread := rest.drop label.length }

/-- The path behind `include` or `extends`. A path of blanks alone is read, but declined. -/
def path : Scanning Bool := fun scanner =>
  match scanner.unread with
  | ' ' :: rest =>
      let line := firstLine rest
      if line.isEmpty then
        .ok false scanner
      else
        let value := trim line
        match scanner.endOfLine? (' ' :: line) (rest.drop line.length)
            (.path (String.ofList value)) with
        | none => .ok false scanner
        | some (token, next) =>
            if value.isEmpty then .ok false next else .ok true (next.pushToken token)
  | _ => .ok false scanner

/-- A template extends another: the keyword, in either spelling, and a path. -/
def inheritance (path : Scanning Bool) : Scanning Bool := do
  let announce (keyword : String) : Scanning Bool := do
    modify (·.emit .inheritance keyword.length)
    if ← path then
      return true
    throw ((← get).fault .noExtendsPath)
  let scanner ← get
  if opensWith "extends" [' ', '\n'] scanner.unread then
    announce "extends"
  else if opensWith "extend" [' ', '\n'] scanner.unread then
    announce "extend"
  else if atWordBoundary "extends" scanner.unread || atWordBoundary "extend" scanner.unread then
    throw (scanner.fault .malformedExtends)
  else
    return false

/-- A template includes a file: the keyword, filters for the file, and a path. -/
def inclusion (filter path : Scanning Bool) : Scanning Bool := do
  let scanner ← get
  if opensWith "include" [':', ' ', '\n'] scanner.unread then
    set (scanner.emit .inclusion "include".length)
    repeatRule filter scanner.unread.length
    if ← path then
      return true
    let stopped ← get
    match stopped.unread with
    | [] | ' ' :: _ | '\n' :: _ => throw (stopped.fault .noIncludePath)
    | _ => throw stopped.unexpected
  else if atWordBoundary "include" scanner.unread then
    throw (scanner.fault .malformedInclude)
  else
    return false

/-- The declaration of a mixin: its name and, up to the last bracket of the line, parameters. -/
def mixin : SimpleRule := fun scanner => do
  let (head, rest) ← keywordSpaces? "mixin" scanner.unread
  let name := rest.takeWhile isWordOrDash
  if name.isEmpty then
    none
  else
    let rest := rest.drop name.length
    let arguments? : Option (List Char) :=
      match (firstLine rest).dropWhile (· == ' ') with
      | '(' :: line => (splitLast? ')' line).map Prod.fst
      | _ => none
    let spaces := (rest.takeWhile (· == ' ')).length
    let bracketed :=
      match arguments? with
      | some arguments => spaces + arguments.length + 2
      | none => 0
    let trailing := ((rest.drop bracketed).takeWhile (· == ' ')).length
    some (scanner.emit (.mixin (String.ofList name) (arguments?.map String.ofList))
      (head.length + name.length + bracketed + trailing))

end Rule

end Offside
