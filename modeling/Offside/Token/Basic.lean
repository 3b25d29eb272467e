import Offside.Source.Span

/-!
# Tokens

A template is cut into tokens. Besides the words and texts of each line there are tokens for the
layout: one when a line is indented deeper than the one before, one for each level that it leaves,
and one when it stays on the same level.
-/

namespace Offside

/-- How a named block combines with the block of the same name that it overrides. -/
inductive BlockMode where
  | replace
  | append
  | prepend
deriving DecidableEq, Inhabited

/-- The mode as it is written out. -/
def BlockMode.name : BlockMode → String
  | replace => "replace"
  | append => "append"
  | prepend => "prepend"

/-- The value of an attribute: a bare name stands for itself, anything else has a text. -/
inductive AttributeValue where
  | present
  | text (value : String)
deriving DecidableEq, Inhabited

/-- The text of a value, none for a bare name. -/
def AttributeValue.text? : AttributeValue → Option String
  | present => none
  | text value => some value

/-- The kinds of tokens. -/
inductive TokenKind where
  | tag (name : String)
  | id (name : String)
  | className (name : String)
  | attributeEntry (name : String) (value : AttributeValue)
  | startAttributes
  | endAttributes
  | text (value : String)
  /-- Text that is copied to the page as it is. -/
  | html (value : String)
  /-- A variable inside text. -/
  | code (expression : String) (buffered escaped : Bool)
  /-- A variable in place of a tag's name. -/
  | interpolation (expression : String)
  | startInterpolation
  | endInterpolation
  | startTextBlock
  | endTextBlock
  | indent (width : Nat)
  | outdent
  | newline
  | namedBlock (name : String) (mode : BlockMode)
  | mixinBlock
  | mixin (name : String) (arguments : Option String)
  | call (name : String) (arguments : Option String)
  | filter (name : String)
  | path (value : String)
  | inclusion
  | inheritance
  | yieldSlot
  | default
  | doctype (value : String)
  | comment (value : String) (buffered : Bool)
  | dot
  | colon
  | slash
  | eos
deriving DecidableEq, Inhabited

namespace TokenKind

/-- The name of a kind, as it appears in messages. -/
def name : TokenKind → String
  | tag .. => "tag"
  | id .. => "id"
  | className .. => "class"
  | attributeEntry .. => "attribute"
  | startAttributes => "start-attributes"
  | endAttributes => "end-attributes"
  | text .. => "text"
  | html .. => "text-html"
  | code .. => "interpolated-code"
  | interpolation .. => "interpolation"
  | startInterpolation => "start-interpolation"
  | endInterpolation => "end-interpolation"
  | startTextBlock => "start-pipeless-text"
  | endTextBlock => "end-pipeless-text"
  | indent .. => "indent"
  | outdent => "outdent"
  | newline => "newline"
  | namedBlock .. => "block"
  | mixinBlock => "mixin-block"
  | mixin .. => "mixin"
  | call .. => "call"
  | filter .. => "filter"
  | path .. => "path"
  | inclusion => "include"
  | inheritance => "extends"
  | yieldSlot => "yield"
  | default => "default"
  | doctype .. => "doctype"
  | comment .. => "comment"
  | dot => "dot"
  | colon => ":"
  | slash => "slash"
  | eos => "eos"

/-- The text that a token carries, if it carries one. -/
def value? : TokenKind → Option String
  | tag value | id value | className value | text value | html value | code value _ _
  | interpolation value | namedBlock value _ | mixin value _ | call value _ | filter value
  | path value | doctype value | comment value _ => some value
  | _ => none

end TokenKind

/-- A token: its kind, where it starts, and the position just after it. -/
structure Token where
  kind : TokenKind
  span : Span
  stop : Position
deriving DecidableEq, Inhabited

/-- The name of the token's kind. -/
def Token.name (token : Token) : String :=
  token.kind.name

end Offside
