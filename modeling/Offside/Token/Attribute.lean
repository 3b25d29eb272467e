import Offside.Text.Literal
import Offside.Token.Scanner

/-!
# Attribute lists

The text between the brackets behind a name is a list of entries, separated by blanks: a bare name,
or a name, an equals sign and a value. Names and values may be quoted; in a quoted value a
backslash takes the next character literally, except that `\n` and `\t` are a newline and a tab.
-/

namespace Offside

open Text

/-- What is left of an attribute list, and where it stands. -/
structure AttributeCursor where
  rest : List Char
  position : Position

namespace AttributeCursor

/-- Skip the blanks between entries. -/
def skip (cursor : AttributeCursor) : AttributeCursor :=
  ⟨cursor.rest.dropWhile isSeparator, cursor.position.past (cursor.rest.takeWhile isSeparator)⟩

end AttributeCursor

/-- The code points that may stand in an attribute's name. -/
def isAttributeNameCharacter (character : Char) : Bool :=
  let code := character.toNat
  let control := code ≤ 0x1F || (0x7F ≤ code && code ≤ 0x9F)
  let punctuation := [' ', '\x27', '\x22', '>', '/', '='].contains character
  let noncharacter := (0xFDD0 ≤ code && code ≤ 0xFDEF) || code &&& 0xFFFE == 0xFFFE
  !(control || punctuation || noncharacter)

/-- A text in quotes, after the opening one; the closing quote may be missing at the end. An
escape counts as two columns, whatever it stands for. -/
def readQuoted (quote : Char) : List Char → Position → List Char × AttributeCursor
  | [], position => ([], ⟨[], position⟩)
  | '\\' :: escaped :: rest, position =>
      let (value, cursor) := readQuoted quote rest (position.right 2)
      (unescape escaped :: value, cursor)
  | character :: rest, position =>
      if character = quote then
        ([], ⟨rest, position.right 1⟩)
      else
        let (value, cursor) := readQuoted quote rest (position.after character)
        (character :: value, cursor)

/-- The name of an entry, and the quote around it. A quoted name has no escapes. -/
def readName (cursor : AttributeCursor) : Option Char × List Char × AttributeCursor :=
  match cursor.rest with
  | [] => (none, [], cursor)
  | first :: rest =>
      if isQuoteMark first then
        let name := rest.takeWhile (· ≠ first)
        let stop := (cursor.position.right 1).past name
        match rest.dropWhile (· ≠ first) with
        | [] => (some first, name, ⟨[], stop⟩)
        | _ :: others => (some first, name, ⟨others, stop.right 1⟩)
      else
        let inName (character : Char) : Bool := !(isSeparator character || character == '=')
        let name := cursor.rest.takeWhile inName
        (none, name, ⟨cursor.rest.dropWhile inName, cursor.position.past name⟩)

/-- The value behind an equals sign, and the quote around it. -/
def readValue (cursor : AttributeCursor) : Option Char × List Char × AttributeCursor :=
  match cursor.rest with
  | [] => (none, [], cursor)
  | first :: rest =>
      if isQuoteMark first then
        let (value, cursor) := readQuoted first rest (cursor.position.right 1)
        (some first, value, cursor)
      else
        let inValue (character : Char) : Bool := !isSeparator character
        let value := cursor.rest.takeWhile inValue
        (none, value, ⟨cursor.rest.dropWhile inValue, cursor.position.past value⟩)

/-- One entry of an attribute list, and what is left of the list. -/
def attributeEntry (scanner : Scanner) (text : List Char) :
    Except (Diagnostic TokenFault) (Scanner × List Char) :=
  let entry := AttributeCursor.skip ⟨text, scanner.position⟩
  if entry.rest.isEmpty then
    .ok ({ scanner with position := entry.position }, [])
  else do
    let (nameQuote, name, cursor) := readName entry
    if name.isEmpty then
      throw (scanner.faultAt cursor.position .emptyAttributeName)
    let invalid := name.filter (!isAttributeNameCharacter ·)
    if !invalid.isEmpty then
      throw (scanner.faultAt cursor.position (.invalidAttributeName (String.ofList invalid)))
    let cursor := cursor.skip
    let (quote, value, cursor) : Option Char × AttributeValue × AttributeCursor :=
      match cursor.rest with
      | '=' :: rest =>
          let (quote, value, cursor) := readValue
            (AttributeCursor.skip ⟨rest, cursor.position.right 1⟩)
          (quote, .text (String.ofList value), cursor)
      | _ => (nameQuote, .present, cursor)
    if quote.isSome then
      match cursor.rest with
      | found :: _ =>
          if !isSeparator found then
            throw (scanner.faultAt cursor.position (.malformedAttribute found))
      | [] => pure ()
    let named := { scanner with position := cursor.position }
    let added := named.push (.attributeEntry (String.ofList name) value) entry.position
    let cursor := cursor.skip
    return ({ added with position := cursor.position }, cursor.rest)

/-- The entries of an attribute list; the budget is at least their number. -/
def attributeEntries (scanner : Scanner) : (budget : Nat) → List Char →
    Except (Diagnostic TokenFault) Scanner
  | 0, _ => .ok scanner
  | _ + 1, [] => .ok scanner
  | budget + 1, text => do
      let (next, rest) ← attributeEntry scanner text
      attributeEntries next budget rest

namespace Rule

/-- A whole attribute list in round brackets. -/
def attributes : CheckedRule := fun scanner =>
  match scanner.unread with
  | '(' :: inside => do
      let (body, rest) ← scanner.bracketed ['('] ')' inside
      let opened := (scanner.right 1).push .startAttributes scanner.position
      let filled ← attributeEntries { opened with unread := rest } (body.length + 1) body
      return some ((filled.right 1).push .endAttributes filled.position)
  | _ => .ok none

end Rule

end Offside
