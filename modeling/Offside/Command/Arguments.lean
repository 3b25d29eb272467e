import Offside.Page
import Offside.Text.Quoted

/-!
# Arguments of the command

The first argument is a verb. The others are options, some of which take a value, and files; their
order does not matter, except that of two values for one option the last counts.
-/

namespace Offside.Command

/-- What the command does with each file. -/
inductive Verb where
  | render
  | check
  | tokens
  | ast
deriving DecidableEq

/-- The verb of a name. -/
def Verb.ofName? : String → Option Verb
  | "render" => some .render
  | "check" => some .check
  | "tokens" => some .tokens
  | "ast" => some .ast
  | _ => none

/-- Why the arguments cannot be understood. -/
inductive UsageFault where
  /-- There are no arguments, or help is asked for. -/
  | help
  | unknownVerb (name : String)
  | unknownOption (name : String)
  | missingDirectory
  | missingBinding
  /-- A binding without an equals sign. -/
  | malformedBinding (text : String)
  | noFiles
deriving DecidableEq

namespace UsageFault

/-- How to use the command. -/
def usage : String :=
  "Usage: pugneum <command> [options] [files...]\n" ++
  "\n" ++
  "Commands:\n" ++
  "  render  Render template(s) to HTML on stdout\n" ++
  "  check   Check that template(s) compile\n" ++
  "  tokens  Print the token stream as JSON\n" ++
  "  ast     Print the parsed tree as JSON\n" ++
  "\n" ++
  "Options:\n" ++
  "  --basedir <dir>       Root for absolute includes (default: current directory)\n" ++
  "  --global <name=value> Bind a variable for #\x7bname\x7d and mixin arguments\n" ++
  "\n" ++
  "Set RUST_LOG=pugneum=debug for stage diagnostics."

/-- What is said about the arguments. -/
def message : UsageFault → String
  | help => usage
  | unknownVerb name => "Unknown command: " ++ name
  | unknownOption name => "Error: Unknown option: " ++ name
  | missingDirectory => "Error: --basedir needs a directory"
  | missingBinding => "Error: --global needs name=value"
  | malformedBinding text => "Error: --global expects name=value, got " ++ Text.quoted text
  | noFiles => "Error: no files specified"

end UsageFault

/-- What the options and files among the arguments ask for. -/
structure Settings where
  baseDirectory : Option String := none
  /-- The bound variables, the last one first. -/
  globals : List (String × String) := []
  files : List String := []

/-- The name and the value of a binding. -/
def binding? (text : String) : Option (String × String) :=
  match text.toList.span (· ≠ '=') with
  | (name, _ :: value) => some (String.ofList name, String.ofList value)
  | (_, []) => none

/-- Read the arguments after the verb. -/
def readSettings (settings : Settings) : List String → Except UsageFault Settings
  | [] => .ok { settings with files := settings.files.reverse }
  | "--basedir" :: [] => .error .missingDirectory
  | "--basedir" :: directory :: rest =>
      readSettings { settings with baseDirectory := some directory } rest
  | "--global" :: [] => .error .missingBinding
  | "--global" :: text :: rest =>
      match binding? text with
      | none => .error (.malformedBinding text)
      | some binding => readSettings { settings with globals := binding :: settings.globals } rest
  | argument :: rest =>
      if (Text.afterKeyword? "--" argument.toList).isSome then .error (.unknownOption argument)
      else readSettings { settings with files := argument :: settings.files } rest

/-- What the command is to do. -/
structure Task where
  verb : Verb
  options : PageOptions
  files : List String

/-- Read all arguments. Absolute paths lead from the working directory, unless another directory is
given. -/
def readArguments (workingDirectory : Option String) : List String → Except UsageFault Task
  | [] => .error .help
  | name :: rest =>
      if name = "--help" ∨ name = "-h" then .error .help
      else
        match Verb.ofName? name with
        | none => .error (.unknownVerb name)
        | some verb =>
            match readSettings {} rest with
            | .error fault => .error fault
            | .ok ⟨_, _, []⟩ => .error .noFiles
            | .ok settings =>
                .ok
                  { verb
                    options :=
                      { baseDirectory := settings.baseDirectory <|> workingDirectory
                        globals := settings.globals }
                    files := settings.files }

end Offside.Command
