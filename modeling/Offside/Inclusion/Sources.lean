import Offside.Document.Basic
import Offside.Failure

/-!
# The sources of a document

After loading, a document holds nodes of several templates. Their texts are kept by file, so that a
later failure can show the lines it is about.
-/

namespace Offside

/-- The text of each template, by its file. -/
abbrev Sources := List (Option String × String)

namespace Sources

/-- The text of a template. -/
def find? (sources : Sources) (file : Option String) : Option String :=
  sources.lookup file

mutual

/-- Add the templates that a node refers to, and those that they refer to. A file that is known
already is passed over with all it refers to. -/
def addNode (sources : Sources) : Node → Sources
  | .leaf .. => sources
  | .branch _ _ children => addNodes sources children
  | .file _ (.raw _) _ _ _ => sources
  | .file _ _ reference loaded children =>
      match reference.fullPath, reference.contents, reference.root with
      | some path, some contents, some _ =>
          if (sources.find? (some path)).isSome then addNodes sources children
          else addNodes (addNodes (sources ++ [(some path, contents)]) loaded) children
      | _, _, _ => addNodes sources children

/-- Add the templates that some nodes refer to, and those that they refer to. -/
def addNodes (sources : Sources) : List Node → Sources
  | [] => sources
  | node :: rest => addNodes (addNode sources node) rest

end

/-- The sources of a loaded document. -/
def ofDocument (file : Option String) (source : String) (document : Document) : Sources :=
  addNodes [(file, source)] document.nodes

/-- Show a failure with the text of its file, if that is known. -/
def attach (sources : Sources) (failure : Failure) : Failure :=
  match sources.find? failure.span.file with
  | some source => failure.attach source
  | none => failure

end Sources

end Offside
