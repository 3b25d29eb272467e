import Offside.Source.Diagnostic

/-!
# What can be wrong with included files

The causes for which a file that a template refers to cannot be loaded.
-/

namespace Offside

/-- Why a file cannot be loaded. -/
inductive LoadFault where
  /-- A relative path in a template of which the file is not known. -/
  | missingFileName
  /-- An absolute path without a base directory. -/
  | missingBaseDirectory
  | unreadable (path message : String)
  | tooDeep (limit : Nat)
deriving DecidableEq

namespace LoadFault

/-- The reason part of the error code. -/
def reason : LoadFault → String
  | missingFileName => "MISSING_FILENAME"
  | missingBaseDirectory => "MISSING_BASEDIR"
  | unreadable .. => "READ_FAILED"
  | tooDeep .. => "INCLUDE_DEPTH_EXCEEDED"

/-- The message in words. -/
def message : LoadFault → String
  | missingFileName =>
      "the \x22filename\x22 option is required to use includes and extends with " ++
        "\x22relative\x22 paths"
  | missingBaseDirectory =>
      "the \x22basedir\x22 option is required to use includes and extends with " ++
        "\x22absolute\x22 paths"
  | unreadable path message => "could not read " ++ path ++ ": " ++ message
  | tooDeep limit => "includes nested more than " ++ toString limit ++ " levels deep"

end LoadFault

instance : Cause LoadFault where
  reason := LoadFault.reason
  message := LoadFault.message

end Offside
