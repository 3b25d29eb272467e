import Offside.Files.Path
import Offside.Inclusion.Fault
import Offside.Text.Blank

/-!
# Where included files are

A template names other files by paths. An absolute path leads from a base directory, a relative one
from the directory of the template.
-/

namespace Offside

/-- The path at which a file is read: an absolute path leads from the base directory, any other
from the directory of the file in which it is written. -/
def resolvePath (baseDirectory : Option String) (path : String) (source : Option String) :
    Except LoadFault String :=
  match Text.trim path.toList with
  | '/' :: rest =>
      match baseDirectory with
      | none => .error .missingBaseDirectory
      | some base => .ok (String.ofList (Path.join base.toList rest))
  | relative =>
      match source with
      | none => .error .missingFileName
      | some source =>
          let directory := (Path.parent? (Text.trim source.toList)).getD []
          .ok (String.ofList (Path.join directory relative))

end Offside
