import Offside.Json.Basic
import Offside.Token.Basic

/-!
# Tokens as JSON

A token is written with its type and values first, then where it starts and ends.
-/

namespace Offside

/-- A position as an object. -/
def Position.toJson (position : Position) : Json :=
  .object [("line", .number position.line), ("column", .number position.column)]

namespace Span

/-- The fields of a span; the file is left out when it is not known. -/
def fields (span : Span) : List (String × Json) :=
  (match span.file with
    | some file => [("file", .string file)]
    | none => []) ++
  [("line", .number span.line), ("column", .number span.column)]

/-- A span as an object. -/
def toJson (span : Span) : Json :=
  .object span.fields

end Span

/-- The text of an attribute's value, true for a bare name. -/
def AttributeValue.toJson : AttributeValue → Json
  | present => .bool true
  | text value => .string value

/-- The fields of a kind of token. -/
def TokenKind.fields : TokenKind → List (String × Json)
  | tag value | id value | className value | text value | html value | interpolation value
  | filter value | path value | doctype value => [("val", .string value)]
  | attributeEntry name value => [("name", .string name), ("val", value.toJson)]
  | code value buffered escaped =>
      [("val", .string value), ("buffer", .bool buffered), ("must_escape", .bool escaped)]
  | indent width => [("val", .number width)]
  | namedBlock name mode => [("val", .string name), ("mode", .string mode.name)]
  | mixin name arguments | call name arguments =>
      [("val", .string name), ("args", Json.ofString? arguments)]
  | comment value buffered => [("val", .string value), ("buffer", .bool buffered)]
  | startAttributes | endAttributes | startInterpolation | endInterpolation | startTextBlock
  | endTextBlock | outdent | newline | mixinBlock | inclusion | inheritance | yieldSlot | default
  | dot | colon | slash | eos => []

/-- A token as an object. -/
def Token.toJson (token : Token) : Json :=
  .object (("type", .string token.name) :: token.kind.fields ++
    [("span", token.span.toJson), ("end", token.stop.toJson)])

end Offside
