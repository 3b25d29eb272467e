import Offside.Source.Diagnostic

/-!
# What can be wrong between templates

The causes for which a template and the files it refers to cannot be made into one document.
-/

namespace Offside

/-- Why a document and its files cannot be made into one. -/
inductive LinkFault where
  | extendsNotFirst
  | unexpectedNodesInExtendingRoot (found : String)
  | unexpectedBlock (name : String)
  /-- A reference to a file that was never read. -/
  | unloadedFile (path : String)
deriving DecidableEq

namespace LinkFault

/-- The reason part of the error code. -/
def reason : LinkFault → String
  | extendsNotFirst => "EXTENDS_NOT_FIRST"
  | unexpectedNodesInExtendingRoot .. => "UNEXPECTED_NODES_IN_EXTENDING_ROOT"
  | unexpectedBlock .. => "UNEXPECTED_BLOCK"
  | unloadedFile .. => "UNLOADED_FILE"

/-- The message in words. -/
def message : LinkFault → String
  | extendsNotFirst =>
      "Declaration of template inheritance (\x22extends\x22) should be the first thing in the " ++
        "file. There can only be one extends statement per file."
  | unexpectedNodesInExtendingRoot found =>
      "Only named blocks and mixins can appear at the top level of an extending template, found " ++
        found
  | unexpectedBlock name => "Unexpected block " ++ name
  | unloadedFile path => "the file \x22" ++ path ++ "\x22 has not been loaded"

end LinkFault

instance : Cause LinkFault where
  reason := LinkFault.reason
  message := LinkFault.message

end Offside
