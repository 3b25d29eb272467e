/-!
# Paths

A path is a text of names with slashes between them. A path that starts with a slash is absolute.
Repeated slashes, and names that are a single dot, stand for nothing, except that a dot at the start
of a path is kept.
-/

namespace Offside.Path

/-- The names of a path, in order; one may be empty. -/
def names : List Char → List (List Char)
  | [] => [[]]
  | '/' :: rest => [] :: names rest
  | character :: rest =>
      match names rest with
      | [] => [[character]]
      | name :: others => (character :: name) :: others

/-- Put a path after a base. An absolute path leaves nothing of the base. -/
def join (base path : List Char) : List Char :=
  match path with
  | '/' :: _ => path
  | _ =>
      match base.getLast? with
      | none => path
      | some '/' => base ++ path
      | some _ => base ++ '/' :: path

/-- What a path starts with before its names: the root, or a dot. -/
def head : List Char → List Char
  | '/' :: _ => ['/']
  | ['.'] => ['.']
  | '.' :: '/' :: _ => ['.']
  | _ => []

/-- Drop slashes and single dots from the end of a text that is given from its end. -/
def dropEmptyNames : (reversed : List Char) → List Char
  | '/' :: rest => dropEmptyNames rest
  | ['.'] => []
  | '.' :: '/' :: rest => dropEmptyNames rest
  | reversed => reversed

/-- The path without its last name. A root has no parent, and neither has the empty path. -/
def parent? (path : List Char) : Option (List Char) :=
  let start := head path
  match dropEmptyNames (path.drop start.length).reverse with
  | [] => if start = ['.'] then some [] else none
  | reversed =>
      let others := (reversed.dropWhile (· ≠ '/')).tail
      some (start ++ (dropEmptyNames others).reverse)

end Offside.Path
