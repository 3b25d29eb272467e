import Offside.Files.Fault
import Offside.Files.Path

/-!
# Files in memory

A tree of files that is read by paths, as a file system is. A directory is there if it is on the
way to a file or to the current directory. A path is followed name by name, and every name but the
last has to lead to a directory.
-/

namespace Offside

/-- Some files and a current directory, each given by the names that lead to it from the root. -/
structure FileTree where
  current : List String
  files : List (List String × List UInt8)

/-- What is found at the end of some names. -/
inductive FileEntry where
  | file (bytes : List UInt8)
  | directory (names : List String)

namespace FileTree

/-- The names of a path that do not stand for nothing. -/
def names (path : String) : List String :=
  ((Path.names path.toList).map String.ofList).filter fun name => name ≠ "" ∧ name ≠ "."

/-- A tree of files that are given by paths relative to the current directory. -/
def ofFiles (current : List String) (files : List (String × List UInt8)) : FileTree :=
  ⟨current, files.map fun (path, bytes) => (current ++ names path, bytes)⟩

/-- What is at the end of some names. -/
def entry? (tree : FileTree) (names : List String) : Option FileEntry :=
  match tree.files.lookup names with
  | some bytes => some (.file bytes)
  | none =>
      if names.isPrefixOf tree.current || tree.files.any fun entry => names.isPrefixOf entry.1 then
        some (.directory names)
      else
        none

/-- The greatest number of bytes in a name. -/
def maxNameLength : Nat := 255

/-- The number of bytes that a path has to stay below. -/
def maxPathLength : Nat := 4096

/-- Follow names from an entry. -/
def follow (tree : FileTree) : FileEntry → List String → Except FileFault FileEntry
  | entry, [] => .ok entry
  | .file _, _ :: _ => .error .notDirectory
  | .directory names, name :: rest =>
      if name = "" ∨ name = "." then tree.follow (.directory names) rest
      else if name = ".." then tree.follow (.directory names.dropLast) rest
      else if name.utf8ByteSize > maxNameLength then .error .nameTooLong
      else
        match tree.entry? (names ++ [name]) with
        | none => .error .missing
        | some entry => tree.follow entry rest

/-- The bytes of the file at a path. -/
def read (tree : FileTree) (path : String) : Except FileFault (List UInt8) :=
  let characters := path.toList
  if characters.contains '\x00' then .error .zeroInPath
  else if characters.isEmpty then .error .missing
  else if path.utf8ByteSize ≥ maxPathLength then .error .nameTooLong
  else
    let start := if characters.head? = some '/' then [] else tree.current
    match tree.follow (.directory start) ((Path.names characters).map String.ofList) with
    | .error fault => .error fault
    | .ok (.directory _) => .error .isDirectory
    | .ok (.file bytes) => .ok bytes

end FileTree

end Offside
