import Offside.Token.Scanner

/-!
# The offside rule

A newline is read together with the indentation behind it. A line that is indented deeper than the
innermost open level opens a level; one that is indented less must return to the width of an open
level, and closes all deeper ones.
-/

namespace Offside

open Text

/-- How far a line is indented, counted in one unit. -/
def indentWidth (unit : IndentUnit) (line : List Char) : Nat :=
  (line.takeWhile (· == unit.character)).length

theorem indentWidth_le_length (unit : IndentUnit) (line : List Char) :
    indentWidth unit line ≤ line.length :=
  (List.takeWhile_prefix _).length_le

namespace Scanner

/-- The indentation behind the newline that comes next. The first indented line fixes the unit. -/
def measure? (scanner : Scanner) : Option (Nat × Scanner) :=
  match scanner.unread with
  | '\n' :: rest =>
      match scanner.unit with
      | some unit => some (indentWidth unit rest, scanner)
      | none =>
          let tabs := indentWidth .tab rest
          let spaces := indentWidth .space rest
          if 0 < tabs then
            some (tabs, { scanner with unit := some .tab })
          else if 0 < spaces then
            some (spaces, { scanner with unit := some .space })
          else
            some (0, scanner)
  | _ => none

end Scanner

/-- Close the levels that are deeper than `width`: how many, and what stays open. When `width` lies
between two levels, these two are given instead. -/
def closeLevels (width : Nat) : List Nat → Except (Nat × Nat) (Nat × List Nat)
  | [] => .ok (0, [])
  | level :: levels =>
      if level ≤ width then
        .ok (0, level :: levels)
      else if levels.headD 0 < width then
        .error (levels.headD 0, level)
      else
        (closeLevels width levels).map fun (closed, rest) => (closed + 1, rest)

namespace Scanner

/-- Add the token for leaving one level, from the start of the line to the indentation. -/
def pushOutdent (scanner : Scanner) : Scanner :=
  let line := scanner.position.line
  { scanner with position := ⟨line, scanner.top + 1⟩ }.push .outdent ⟨line, 1⟩

/-- Compare the width of a new line with the open levels. -/
def align (scanner : Scanner) (width : Nat) : Except (Diagnostic TokenFault) Scanner :=
  let line := scanner.position.line
  if width < scanner.top then
    match closeLevels width scanner.levels with
    | .error (outer, inner) => .error (scanner.fault (.inconsistentIndentation outer inner))
    | .ok (closed, levels) =>
        let noted := { scanner with levels := levels }.note (.outdented closed width)
        .ok ((List.replicate closed ()).foldl (fun left _ => left.pushOutdent) noted)
  else if scanner.top < width then
    let moved := { scanner with position := ⟨line, 1 + width⟩ }.note (.indented width)
    .ok { moved.push (.indent width) scanner.position with levels := width :: scanner.levels }
  else
    .ok ({ scanner with position := ⟨line, 1 + width⟩ }.push .newline scanner.position)

end Scanner

/-- A newline, its indentation, and the layout tokens that follow from it. -/
def Rule.indentation : CheckedRule := fun scanner =>
  match scanner.measure? with
  | none => .ok none
  | some (width, measured) =>
      let next := measured.nextLine.drop (width + 1)
      match next.unread with
      | ' ' :: _ | '\t' :: _ => .error (next.fault .invalidIndentation)
      | '\n' :: _ => .ok (some { next with markersAllowed := true })
      | _ => do
          let aligned ← next.align width
          return some { aligned with markersAllowed := true }

end Offside
