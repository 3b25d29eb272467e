import Offside.Source.Diagnostic

/-!
# What can be wrong with a page

The causes for which a document cannot be written as a page.
-/

namespace Offside

/-- Why a document cannot be written as a page. -/
inductive RenderFault where
  | undefinedMixin (name : String)
  | argumentCountMismatch (name : String) (expected found : Nat)
  | undefinedVariable (name : String)
  /-- The place for the block of a call, outside of any call. -/
  | callStackUnderflow
  | voidElementWithContent (name : String)
  /-- A kind of node that should not be in a finished document. -/
  | unsupportedNode (kind : String)
  | recursionLimit (limit : Nat)
  | invalidArgument (argument : String)
  | invalidParameter (parameter : String)
deriving DecidableEq

namespace RenderFault

/-- The reason part of the error code. -/
def reason : RenderFault → String
  | undefinedMixin .. => "UNDEFINED_MIXIN"
  | argumentCountMismatch .. => "MIXIN_ARGUMENT_COUNT_MISMATCH"
  | undefinedVariable .. => "UNDEFINED_VARIABLE"
  | callStackUnderflow => "CALL_STACK_UNDERFLOW"
  | voidElementWithContent .. => "VOID_ELEMENT_WITH_CONTENT"
  | unsupportedNode .. => "UNSUPPORTED_NODE"
  | recursionLimit .. => "MIXIN_RECURSION_LIMIT"
  | invalidArgument .. => "INVALID_MIXIN_ARGUMENT"
  | invalidParameter .. => "INVALID_MIXIN_PARAMETER"

/-- What to do about a kind of node. -/
def advice (kind : String) : String :=
  if kind = "Filter" then "; apply filters first"
  else if ["Extends", "Include", "RawInclude", "NamedBlock"].contains kind then
    "; link the tree first"
  else ""

/-- The message in words. -/
def message : RenderFault → String
  | undefinedMixin name => "Mixin " ++ name ++ " is not defined"
  | argumentCountMismatch name expected found =>
      "Mixin " ++ name ++ " takes " ++ toString expected ++ " argument(s) but was called with " ++
        toString found
  | undefinedVariable name => "Variable " ++ name ++ " is not defined"
  | callStackUnderflow => "Mixin block rendered outside of a mixin call"
  | voidElementWithContent name =>
      name ++ " is a self closing element: <" ++ name ++ "> but contains nested content"
  | unsupportedNode kind => kind ++ " nodes are not supported by the renderer" ++ advice kind
  | recursionLimit limit =>
      "Mixin calls nested more than " ++ toString limit ++ " levels deep"
  | invalidArgument argument =>
      "Invalid mixin argument \x60" ++ argument ++
        "\x60: expected a quoted string, a number or a variable"
  | invalidParameter parameter =>
      "Invalid mixin parameter \x60" ++ parameter ++ "\x60: expected a name"

end RenderFault

instance : Cause RenderFault where
  reason := RenderFault.reason
  message := RenderFault.message

end Offside
