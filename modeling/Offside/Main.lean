import Offside.Command.Run

/-!
# The command

The command is a function of its arguments and of the files that it reads. It is run on the files
that are known so far, none at first; while it asks for others, these are read and it is run again.
-/

namespace Offside

/-- The reason for a failure of the system, in words. The number of the reason may be given with
a minus sign. -/
def systemMessage (failure : IO.Error) : String :=
  let known : Option FileFault :=
    match failure with
    | .noFileOrDirectory _ code _ | .permissionDenied _ code _ | .inappropriateType _ code _
    | .invalidArgument _ code _ | .resourceExhausted _ code _ | .noSuchThing _ code _
    | .otherError code _ => FileFault.ofCode? code.toInt32.toInt.natAbs
    | _ => none
  match known with
  | some fault => fault.message
  | none => toString failure

/-- The bytes of the file at a path, or why it cannot be read. -/
def readBytes (path : String) : IO (Except String (List UInt8)) := do
  try
    let bytes ← IO.FS.readBinFile path
    return .ok bytes.toList
  catch failure =>
    return .error (systemMessage failure)

/-- Run the command on the files that are known, and read the others that it asks for. -/
partial def runReading (arguments : List String) (workingDirectory : Option String)
    (known : List (String × Except String (List UInt8))) : IO Command.Outcome := do
  let read : Reader := fun path => (known.lookup path).getD (.error "")
  let outcome := Command.run arguments workingDirectory read
  match outcome.unread.find? fun path => (known.lookup path).isNone with
  | none => return outcome
  | some path => runReading arguments workingDirectory ((path, ← readBytes path) :: known)

end Offside

def main (arguments : List String) : IO UInt32 := do
  let directory := (← IO.currentDir).toString
  let outcome ← Offside.runReading arguments (some directory) []
  IO.print outcome.printed.output
  IO.eprint outcome.printed.errors
  return outcome.code.toUInt32
