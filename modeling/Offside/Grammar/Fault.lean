import Offside.Source.Diagnostic

/-!
# What can be wrong with the structure of a template

The causes for which tokens do not form a document.
-/

namespace Offside

/-- Why tokens do not form a document. Kinds of tokens are given by name. -/
inductive ParseFault where
  /-- Another token was needed here. -/
  | expected (expected found : String)
  /-- Nothing starts with this token. -/
  | unexpectedToken (found : String)
  /-- A token that cannot follow a tag's attributes. -/
  | unexpectedInTag (found : String) (selfClosingAllowed : Bool)
  /-- A token in a text block that is not text. -/
  | unexpectedInTextBlock (found : String)
  | duplicateId
  | duplicateAttribute (name : String)
  | mixinWithoutBody (name : String)
  | blockOutsideMixin
  | rawIncludeBlock
deriving DecidableEq

namespace ParseFault

/-- The reason part of the error code. -/
def reason : ParseFault → String
  | expected .. | unexpectedToken .. | unexpectedInTag .. | unexpectedInTextBlock .. =>
      "INVALID_TOKEN"
  | duplicateId => "DUPLICATE_ID"
  | duplicateAttribute .. => "DUPLICATE_ATTRIBUTE"
  | mixinWithoutBody .. => "MIXIN_WITHOUT_BODY"
  | blockOutsideMixin => "BLOCK_OUTSIDE_MIXIN"
  | rawIncludeBlock => "RAW_INCLUDE_BLOCK"

/-- The message in words. -/
def message : ParseFault → String
  | expected wanted found =>
      "expected \x22" ++ wanted ++ "\x22, but got \x22" ++ found ++ "\x22"
  | unexpectedToken found => "unexpected token \x22" ++ found ++ "\x22"
  | unexpectedInTag found selfClosingAllowed =>
      "Unexpected token \x60" ++ found ++
        "\x60 expected \x60text\x60, \x60interpolated-code\x60, \x60:\x60" ++
        (if selfClosingAllowed then ", \x60slash\x60," else ",") ++
        " \x60newline\x60 or \x60eos\x60"
  | unexpectedInTextBlock found => "Unexpected token type: " ++ found
  | duplicateId => "Duplicate attribute \x22id\x22 is not allowed."
  | duplicateAttribute name => "Duplicate attribute \x22" ++ name ++ "\x22 is not allowed."
  | mixinWithoutBody name => "Mixin " ++ name ++ " declared without body"
  | blockOutsideMixin => "Anonymous blocks are not allowed unless they are part of a mixin."
  | rawIncludeBlock => "Raw inclusion cannot contain a block"

end ParseFault

instance : Cause ParseFault where
  reason := ParseFault.reason
  message := ParseFault.message

end Offside
