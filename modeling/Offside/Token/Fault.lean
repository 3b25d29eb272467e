import Offside.Source.Diagnostic

/-!
# What can be wrong with the text of a template

The causes for which cutting a template into tokens fails.
-/

namespace Offside

/-- Why a template cannot be cut into tokens. -/
inductive TokenFault where
  /-- Text that no rule accepts. -/
  | unexpectedText (text : String)
  /-- Tabs and spaces in one indentation. -/
  | invalidIndentation
  /-- A line that returns to a width that no open level has. -/
  | inconsistentIndentation (outer inner : Nat)
  /-- A bracket that is never closed. -/
  | noEndBracket (expected : Char)
  /-- An interpolated tag that is never closed. -/
  | unclosedInterpolation
  /-- A closing bracket that does not match the innermost open one. -/
  | bracketMismatch (expected found : Char)
  /-- An attribute name with characters that it must not hold. -/
  | invalidAttributeName (invalid : String)
  /-- An equals sign or an empty literal where an attribute name belongs. -/
  | emptyAttributeName
  /-- A quoted text that is followed by something other than a separator. -/
  | malformedAttribute (found : Char)
  | invalidId (id : String)
  /-- A bad class name; it is left out when it only lacks a letter or an underscore. -/
  | invalidClassName (name : Option String)
  | noExtendsPath
  | malformedExtends
  | noIncludePath
  | malformedInclude
  | defaultWithExpression
deriving DecidableEq

namespace TokenFault

/-- The reason part of the error code. -/
def reason : TokenFault → String
  | unexpectedText .. => "UNEXPECTED_TEXT"
  | invalidIndentation => "INVALID_INDENTATION"
  | inconsistentIndentation .. => "INCONSISTENT_INDENTATION"
  | noEndBracket .. | unclosedInterpolation => "NO_END_BRACKET"
  | bracketMismatch .. => "BRACKET_MISMATCH"
  | invalidAttributeName .. => "INVALID_ATTRIBUTE_NAME"
  | emptyAttributeName => "EMPTY_ATTRIBUTE_NAME"
  | malformedAttribute .. => "MALFORMED_ATTRIBUTE"
  | invalidId .. => "INVALID_ID"
  | invalidClassName .. => "INVALID_CLASS_NAME"
  | noExtendsPath => "NO_EXTENDS_PATH"
  | malformedExtends => "MALFORMED_EXTENDS"
  | noIncludePath => "NO_INCLUDE_PATH"
  | malformedInclude => "MALFORMED_INCLUDE"
  | defaultWithExpression => "DEFAULT_WITH_EXPRESSION"

/-- The message in words. -/
def message : TokenFault → String
  | unexpectedText text => "unexpected text \x22" ++ text ++ "\x22"
  | invalidIndentation => "Invalid indentation, you can use tabs or spaces but not both"
  | inconsistentIndentation outer inner =>
      "Inconsistent indentation. Expecting either " ++ toString outer ++ " or " ++
        toString inner ++ " spaces/tabs."
  | noEndBracket expected =>
      "The end of the string reached with no closing bracket " ++ expected.toString ++ " found."
  | unclosedInterpolation =>
      "End of line was reached with no closing bracket for interpolation."
  | bracketMismatch expected found =>
      "Mismatched bracket: expected \x60" ++ expected.toString ++ "\x60 but found \x60" ++
        found.toString ++ "\x60"
  | invalidAttributeName invalid =>
      "Code points not allowed in HTML attribute names: " ++ invalid
  | emptyAttributeName => "Attribute names must not be empty."
  | malformedAttribute found =>
      "Invalid code point after attribute value: \x60" ++ found.toString ++ "\x60"
  | invalidId id => "\x22" ++ id ++ "\x22 is not a valid ID."
  | invalidClassName none => "Class names must contain at least one letter or underscore."
  | invalidClassName (some name) =>
      "\x22" ++ name ++ "\x22 is not a valid class name.  Class names can only contain " ++
        "\x22_\x22, \x22-\x22, a-z and 0-9, and must contain at least one of \x22_\x22, or a-z"
  | noExtendsPath => "missing path for extends"
  | malformedExtends => "malformed extends"
  | noIncludePath => "missing path for include"
  | malformedInclude => "malformed include"
  | defaultWithExpression => "default should not have an expression"

end TokenFault

instance : Cause TokenFault where
  reason := TokenFault.reason
  message := TokenFault.message

end Offside
