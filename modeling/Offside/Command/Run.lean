import Offside.Command.Arguments
import Offside.Json.Document

/-!
# Running the command

Each file is worked on in turn, and a file that fails does not keep the others from being worked on.
What the command prints is a value, and so are the paths at which it found nothing to read.
-/

namespace Offside.Command

/-- What is printed. -/
structure Printed where
  output : String := ""
  errors : String := ""

/-- Why nothing can be made of a file. -/
inductive FileFailure where
  /-- The file itself cannot be read as text. -/
  | unreadable (path message : String)
  | template (failure : Failure)

namespace FileFailure

/-- The failure in words. -/
def text : FileFailure → String
  | unreadable path message => path ++ ": " ++ message
  | template failure => failure.text

/-- The path that could not be read, if that was the reason. -/
def path? : FileFailure → Option String
  | unreadable path _ => some path
  | template (.load ⟨.unreadable path _, _, _⟩) => some path
  | template _ => none

end FileFailure

/-- The outcome of a computation, without what it noted. -/
def settle {α : Type} (action : Compiling α) : Except FileFailure α :=
  match action #[] with
  | .ok value _ => .ok value
  | .error failure _ => .error (.template failure)

/-- A text and a newline. -/
def line (text : String) : String :=
  text ++ "\n"

/-- The tokens of a source as JSON. -/
def tokensJson (path source : String) : Compiling Json := do
  let tokens ← (tokenize source { file := some path }).adaptExcept .token
  return .array (tokens.toList.map Token.toJson)

/-- What is printed for the text of a file that is not rendered. -/
def reportText (verb : Verb) (options : PageOptions) (read : Reader) (path source : String) :
    Compiling Printed := do
  match verb with
  | .check =>
      let document ← compile options read (some path) source
      let count := toString document.nodes.length
      return { errors := line (path ++ ": ok (" ++ count ++ " top-level node(s))") }
  | .tokens => return { output := line (← tokensJson path source).print }
  | .ast => return { output := line (← Document.ofSource {} (some path) source).toJson.print }
  | .render => return { output := line (← renderText options read (some path) source) }

/-- What is printed for a file. -/
def reportFile (verb : Verb) (options : PageOptions) (read : Reader) (path : String) :
    Except FileFailure Printed :=
  match verb with
  | .render => settle do return { output := line (← renderFile options read path) }
  | .check | .tokens | .ast =>
      match readText read path with
      | .error message => .error (.unreadable path message)
      | .ok source => settle (reportText verb options read path source)

/-- What a run prints, how it ends, and which paths it could not read. -/
structure Outcome where
  code : Nat := 0
  printed : Printed := {}
  unread : List String := []

namespace Outcome

/-- Add what is printed for a file. -/
def addFile (outcome : Outcome) (report : Except FileFailure Printed) : Outcome :=
  match report with
  | .ok printed =>
      { outcome with
        printed :=
          ⟨outcome.printed.output ++ printed.output, outcome.printed.errors ++ printed.errors⟩ }
  | .error failure =>
      { code := 1
        printed :=
          { outcome.printed with errors := outcome.printed.errors ++ line failure.text }
        unread := outcome.unread ++ failure.path?.toList }

end Outcome

/-- Run the command. -/
def run (arguments : List String) (workingDirectory : Option String) (read : Reader) : Outcome :=
  match readArguments workingDirectory arguments with
  | .error fault => { code := 2, printed := { errors := line fault.message } }
  | .ok task =>
      task.files.foldl
        (fun outcome path => outcome.addFile (reportFile task.verb task.options read path)) {}

end Offside.Command
