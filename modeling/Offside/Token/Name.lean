import Offside.Token.Scanner

/-!
# Names and signs

The rules for tags, ids, classes, calls of mixins, interpolated names and the single signs.
-/

namespace Offside

open Text

namespace Rule

/-- A tag's name may hold dashes and colons but does not end in them. -/
def tag : SimpleRule := fun scanner =>
  match scanner.unread with
  | first :: _ =>
      if isWord first then
        let run := scanner.unread.takeWhile fun character =>
          isWordOrDash character || character == ':'
        let name := dropEndWhile (fun character => character == '-' || character == ':') run
        some (scanner.emit (.tag (String.ofList name)) name.length)
      else
        none
  | [] => none

/-- The offending text in a message about a bad id or class: one character, and all that follows
up to the next separator. -/
def badSelector : List Char → String
  | [] => ""
  | first :: rest =>
      String.ofList
        (first :: rest.takeWhile fun character =>
          !([' ', '\t', '(', '#', '.', ':'].contains character))

/-- An id, written with a hash sign. -/
def id : CheckedRule := fun scanner =>
  match scanner.unread with
  | '#' :: rest =>
      let name := rest.takeWhile isWordOrDash
      if name.isEmpty then
        .error (scanner.fault (.invalidId (badSelector rest)))
      else
        .ok (some (scanner.emit (.id (String.ofList name)) (1 + name.length)))
  | _ => .ok none

/-- A class, written with a dot. Its name must hold a letter or an underscore. -/
def className : CheckedRule := fun scanner =>
  match scanner.unread with
  | '.' :: rest =>
      let name := rest.takeWhile isWordOrDash
      if name.any fun character => character.isAlpha || character == '_' then
        .ok (some (scanner.emit (.className (String.ofList name)) (1 + name.length)))
      else if name.isEmpty then
        .error (scanner.fault (.invalidClassName (some (badSelector rest))))
      else
        .error (scanner.fault (.invalidClassName none))
  | _ => .ok none

/-- Whether the bracket behind a call holds attributes rather than arguments: it begins with a
name and an equals sign. -/
def looksLikeAttributes (body : List Char) : Bool :=
  let body := trimStart body
  let name := body.takeWhile isWordOrDash
  !name.isEmpty &&
    match (body.drop name.length).dropWhile (· == ' ') with
    | '=' :: _ => true
    | _ => false

/-- A call of a mixin, with arguments unless the bracket behind it holds attributes. -/
def call : CheckedRule := fun scanner =>
  match scanner.unread with
  | '+' :: rest => do
      let blanks := rest.takeWhile isIndentation
      let rest := rest.dropWhile isIndentation
      let name := rest.takeWhile isWordOrDash
      if name.isEmpty then
        return none
      let rest := rest.drop name.length
      let named := { scanner.right (1 + blanks.length + name.length) with unread := rest }
      let plain := named.push (.call (String.ofList name) none) scanner.position
      let spaces := rest.takeWhile (· == ' ')
      match rest.dropWhile (· == ' ') with
      | '(' :: inside =>
          let (body, others) ← named.bracketed (spaces ++ ['(']) ')' inside
          if looksLikeAttributes body then
            return some plain
          let called := (((named.right (spaces.length + 1)).past body).right 1).push
            (.call (String.ofList name) (some (String.ofList body))) scanner.position
          return some { called with unread := others }
      | _ => return some plain
  | _ => .ok none

/-- A variable in place of a tag's name. -/
def interpolation : CheckedRule := fun scanner =>
  match scanner.unread with
  | '#' :: '\x7b' :: inside => do
      let (body, rest) ← scanner.bracketed ['#', '\x7b'] '\x7d' inside
      let read := ((scanner.right 2).past body).right 1
      return some { read.push (.interpolation (String.ofList body)) scanner.position with
        unread := rest }
  | _ => .ok none

/-- A slash closes the tag in front of it. -/
def slash : SimpleRule := fun scanner =>
  match scanner.unread with
  | '/' :: _ => some (scanner.emit .slash 1)
  | _ => none

/-- A colon and a space put a tag inside the one in front of it. -/
def colon : SimpleRule := fun scanner =>
  match scanner.unread with
  | ':' :: rest =>
      let spaces := rest.takeWhile (· == ' ')
      if spaces.isEmpty then none else some (scanner.emit .colon (1 + spaces.length))
  | _ => none

end Rule

end Offside
