import Offside.Source.Diagnostic

/-!
# What can be wrong with filters

The causes for which the filters of a document cannot be applied.
-/

namespace Offside

/-- Why a filter cannot be applied. -/
inductive FilterFault where
  | unknown (name : String)
  /-- A name that stands for a name that itself stands for another one. -/
  | aliasChain (name first second : String)
  /-- A reference to a file that was never read. -/
  | unloadedFile (path : String)
  /-- The filter itself refused its text. -/
  | refused (name message : String)
deriving DecidableEq

namespace FilterFault

/-- The reason part of the error code. -/
def reason : FilterFault → String
  | unknown .. => "UNKNOWN_FILTER"
  | aliasChain .. => "FILTER_ALIAS_CHAIN"
  | unloadedFile .. => "UNLOADED_FILE"
  | refused .. => "FILTER_FAILED"

/-- The message in words. -/
def message : FilterFault → String
  | unknown name => "Unknown filter '" ++ name ++ "'"
  | aliasChain name first second =>
      "The filter \x22" ++ name ++ "\x22 is an alias for \x22" ++ first ++
        "\x22, which is an alias for \x22" ++ second ++
        "\x22. pugneum does not support chains of filter aliases."
  | unloadedFile path => "the file \x22" ++ path ++ "\x22 has not been loaded"
  | refused name message => "filter '" ++ name ++ "' failed: " ++ message

end FilterFault

instance : Cause FilterFault where
  reason := FilterFault.reason
  message := FilterFault.message

end Offside
