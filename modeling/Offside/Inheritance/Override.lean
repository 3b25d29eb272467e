import Offside.Document.Basic

/-!
# Overriding named blocks

A template that extends another gives new content for the named blocks of its ancestor. The content
takes the place of the old one, or comes before or after it. A block that was itself written to be
added elsewhere is no target. Once all overrides are merged, the named blocks are dissolved.
-/

namespace Offside

/-- Combine the content of a block with the content that overrides it. -/
def mergeNodes (mode : BlockMode) (ancestor child : List Node) : List Node :=
  match mode with
  | .replace => child
  | .append => ancestor ++ child
  | .prepend => child ++ ancestor

/-- New content for the blocks of a name. -/
structure Override where
  name : String
  mode : BlockMode
  nodes : List Node

mutual

/-- The overrides that a node holds, outermost first. A block inside one of the same name is none.
-/
def overridesIn (active : List String) : Node → List Override
  | .leaf .. => []
  | .branch _ (.namedBlock name mode) children =>
      if active.contains name then []
      else ⟨name, mode, children⟩ :: overridesInAll (name :: active) children
  | .branch _ _ children => overridesInAll active children
  | .file _ (.inclusion _) _ _ children => overridesInAll active children
  | .file .. => []

/-- The overrides that some nodes hold. -/
def overridesInAll (active : List String) : List Node → List Override
  | [] => []
  | node :: rest => overridesIn active node ++ overridesInAll active rest

end

mutual

/-- Merge an override into the blocks of its name, and count them. -/
def Override.mergeInto (entry : Override) : Node → Node × Nat
  | .leaf span content => (.leaf span content, 0)
  | .branch span (.namedBlock name mode) children =>
      if name = entry.name ∧ mode = .replace then
        (.branch span (.namedBlock name mode) (mergeNodes entry.mode children entry.nodes), 1)
      else
        let (children, count) := entry.mergeIntoAll children
        (.branch span (.namedBlock name mode) children, count)
  | .branch span label children =>
      let (children, count) := entry.mergeIntoAll children
      (.branch span label children, count)
  | .file span (.inclusion body) reference loaded children =>
      let (children, count) := entry.mergeIntoAll children
      (.file span (.inclusion body) reference loaded children, count)
  | .file span use reference loaded children => (.file span use reference loaded children, 0)

/-- Merge an override into the blocks of its name among some nodes, and count them. -/
def Override.mergeIntoAll (entry : Override) : List Node → List Node × Nat
  | [] => ([], 0)
  | node :: rest =>
      let (node, count) := entry.mergeInto node
      let (rest, others) := entry.mergeIntoAll rest
      (node :: rest, count + others)

end

mutual

/-- The node without named blocks: their content stands in their place. -/
def dissolveBlocks : Node → List Node
  | .leaf span content => [.leaf span content]
  | .branch _ (.namedBlock ..) children => dissolveAllBlocks children
  | .branch span label children => [.branch span label (dissolveAllBlocks children)]
  | .file span (.inclusion body) reference loaded children =>
      [.file span (.inclusion body) reference loaded (dissolveAllBlocks children)]
  | .file span use reference loaded children => [.file span use reference loaded children]

/-- The nodes without named blocks. -/
def dissolveAllBlocks : List Node → List Node
  | [] => []
  | node :: rest => dissolveBlocks node ++ dissolveAllBlocks rest

end

end Offside
