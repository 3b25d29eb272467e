/-!
# What can be wrong with a file

The reasons for which a file cannot be read as bytes or as text, in the words of the operating
system.
-/

namespace Offside

/-- Why a file cannot be read. -/
inductive FileFault where
  | missing
  | permissionDenied
  | notDirectory
  | isDirectory
  | nameTooLong
  | tooManyLinks
  /-- A path that holds the character zero. -/
  | zeroInPath
  /-- Bytes that are not UTF-8. -/
  | notText
deriving DecidableEq

namespace FileFault

/-- The number that the system gives to the reason, and its description. -/
def numbered (description : String) (code : Nat) : String :=
  description ++ " (os error " ++ toString code ++ ")"

/-- The reason in words. -/
def message : FileFault → String
  | missing => numbered "No such file or directory" 2
  | permissionDenied => numbered "Permission denied" 13
  | notDirectory => numbered "Not a directory" 20
  | isDirectory => numbered "Is a directory" 21
  | nameTooLong => numbered "File name too long" 36
  | tooManyLinks => numbered "Too many levels of symbolic links" 40
  | zeroInPath => "file name contained an unexpected NUL byte"
  | notText => "stream did not contain valid UTF-8"

/-- The reason with a number. -/
def ofCode? (code : Nat) : Option FileFault :=
  [(2, missing), (13, permissionDenied), (20, notDirectory), (21, isDirectory), (36, nameTooLong),
    (40, tooManyLinks)].lookup code

end FileFault

end Offside
