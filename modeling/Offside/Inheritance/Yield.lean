import Offside.Document.Basic

/-!
# Giving content to an included file

The block of an include goes to each place where the included file yields. A file that never yields
takes it at the end of the last node that can hold it, as deep as possible.
-/

namespace Offside

mutual

/-- Put nodes in place of the yields in a node, and count them. -/
def replaceYields (given : List Node) : Node → List Node × Nat
  | .leaf _ .yieldSlot => (given, 1)
  | .leaf span content => ([.leaf span content], 0)
  | .branch span label children =>
      let (children, count) := replaceAllYields given children
      ([.branch span label children], count)
  | .file span (.inclusion body) reference loaded children =>
      let (children, count) := replaceAllYields given children
      ([.file span (.inclusion body) reference loaded children], count)
  | .file span use reference loaded children => ([.file span use reference loaded children], 0)

/-- Put nodes in place of the yields among some nodes, and count them. -/
def replaceAllYields (given : List Node) : List Node → List Node × Nat
  | [] => ([], 0)
  | node :: rest =>
      let (nodes, count) := replaceYields given node
      let (rest, others) := replaceAllYields given rest
      (nodes ++ rest, count + others)

end

/-- Whether a branch can take content at its end, when it has some already or not. -/
def Label.takesContent (empty : Bool) : Label → Bool
  | .tag head _ => !head.textOnly && !empty
  | .variableTag head _ => !head.textOnly && !empty
  | .namedBlock .. | .filter .. => false
  | .block => true
  | .mixin .. | .blockComment .. => !empty

mutual

/-- Put nodes at the end of a node, as deep as possible, if it can take them. -/
def appendInside? (given : List Node) : Node → Option Node
  | .leaf .. => none
  | .branch span label children =>
      if label.takesContent children.isEmpty then
        some (.branch span label ((appendToLast? given children).getD (children ++ given)))
      else
        none
  | .file span (.inclusion body) reference loaded children =>
      if children.isEmpty then
        none
      else
        some (.file span (.inclusion body) reference loaded
          ((appendToLast? given children).getD (children ++ given)))
  | .file .. => none

/-- Put nodes at the end of the last node that can take them, if there is one. -/
def appendToLast? (given : List Node) : List Node → Option (List Node)
  | [] => none
  | node :: rest =>
      match appendToLast? given rest with
      | some rest => some (node :: rest)
      | none => (appendInside? given node).map (· :: rest)

end

/-- Give nodes to those of an included file. -/
def applyYield (given nodes : List Node) : List Node :=
  if given.isEmpty then
    nodes
  else
    match replaceAllYields given nodes with
    | (_, 0) => (appendToLast? given nodes).getD (nodes ++ given)
    | (replaced, _) => replaced

end Offside
