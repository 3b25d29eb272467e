import Offside.Event
import Offside.Inheritance.Fault
import Offside.Inheritance.Override
import Offside.Inheritance.Yield

/-!
# One document out of several templates

Included templates are put in the place where they are included. A template that extends another
becomes its ancestor's document, with its own blocks merged in and its mixins in front.
-/

namespace Offside

/-- What is counted and noted while documents are linked. -/
structure LinkState where
  merged : Nat := 0
  includes : Nat := 0
  events : Array Event := #[]

/-- A computation that links documents. -/
abbrev Linking := EStateM (Diagnostic LinkFault) LinkState

namespace Linking

/-- Fail at a span. -/
def fail {α : Type} (span : Span) (cause : LinkFault) : Linking α :=
  throw ⟨cause, span, none⟩

/-- Note an event. -/
def note (event : Event) : Linking Unit :=
  modify fun state => { state with events := state.events.push event }

end Linking

/-- Whether a node refers to an ancestor. -/
def Node.isInheritance : Node → Bool
  | .file _ .inheritance _ _ _ => true
  | _ => false

/-- No node of a document may refer to an ancestor. -/
def forbidInheritance (nodes : List Node) : Linking Unit :=
  match (Node.walkAll nodes).find? (·.isInheritance) with
  | some node => Linking.fail node.span .extendsNotFirst
  | none => return

/-- A named block at the top level of an extending template. -/
structure RootBlock where
  span : Span
  name : String
  mode : BlockMode
  nodes : List Node

/-- What an extending template may hold at its top level. -/
inductive RootItem where
  | mixin (node : Node)
  | block (block : RootBlock)

namespace RootItem

/-- The declaration, if the item is one. -/
def mixin? : RootItem → Option Node
  | .mixin node => some node
  | .block _ => none

/-- The named block, if the item is one. -/
def block? : RootItem → Option RootBlock
  | .mixin _ => none
  | .block found => some found

end RootItem

mutual

/-- The items that a node at the top level of an extending template stands for. Comments that are
not shown, and blank text, do not count. -/
def rootItems : Node → Linking (List RootItem)
  | .leaf span content =>
      match content with
      | .comment _ false => return []
      | .mixin head =>
          if head.isCall then Linking.fail span (.unexpectedNodesInExtendingRoot content.kind)
          else return [.mixin (.leaf span content)]
      | _ =>
          if (Node.leaf span content).isBlankText then return []
          else Linking.fail span (.unexpectedNodesInExtendingRoot content.kind)
  | .branch span label children =>
      match label with
      | .block => rootItemsOfAll children
      | .namedBlock name mode => return [.block ⟨span, name, mode, children⟩]
      | .mixin head _ =>
          if head.isCall then Linking.fail span (.unexpectedNodesInExtendingRoot label.kind)
          else return [.mixin (.branch span label children)]
      | _ => Linking.fail span (.unexpectedNodesInExtendingRoot label.kind)
  | .file span use _ _ _ => Linking.fail span (.unexpectedNodesInExtendingRoot use.kind)

/-- The items that the nodes at the top level of an extending template stand for. -/
def rootItemsOfAll : List Node → Linking (List RootItem)
  | [] => return []
  | node :: rest => do
      let items ← rootItems node
      return items ++ (← rootItemsOfAll rest)

end

/-- Merge overrides in turn, noting each block that takes one. -/
def applyOverrides : List Override → List Node → Linking (List Node)
  | [], nodes => return nodes
  | entry :: rest, nodes => do
      let (nodes, count) := entry.mergeIntoAll nodes
      modify fun state => { state with
        merged := state.merged + count
        events := state.events ++ Array.replicate count (.blockMerged entry.name entry.mode.name) }
      applyOverrides rest nodes

/-- The names of the named blocks in a document. -/
def blockNames (nodes : List Node) : List String :=
  (Node.walkAll nodes).filterMap fun node =>
    match node with
    | .branch _ (.namedBlock name _) _ => some name
    | _ => none

/-- The overrides of an extending template: those of its named blocks, and those inside mixins. -/
def rootOverrides (items : List RootItem) : List Override :=
  ((items.filterMap RootItem.block?).flatMap fun block =>
    ⟨block.name, block.mode, block.nodes⟩ :: overridesInAll [block.name] block.nodes) ++
  (items.filterMap RootItem.mixin?).flatMap fun mixin =>
    overridesInAll [] (mixin.children?.getD [])

/-- A linked document, and whether it came from an extending template. -/
structure Linked where
  document : Document
  inherits : Bool

/-- Merge an extending template, given by its items, into its linked ancestor. -/
def inheritFrom (items : List RootItem) (ancestor : Document) : Linking Document := do
  let names := blockNames ancestor.nodes
  match (items.filterMap RootItem.block?).find? fun block => !names.contains block.name with
  | some block => Linking.fail block.span (.unexpectedBlock block.name)
  | none =>
      let nodes ← applyOverrides (rootOverrides items) ancestor.nodes
      return { ancestor with nodes := items.filterMap RootItem.mixin? ++ nodes }

/-- Put a linked file in the place of its include. -/
def spliceIncluded (included : Linked) (given : List Node) : Linking (List Node) := do
  let nodes :=
    if included.inherits then dissolveAllBlocks included.document.nodes
    else included.document.nodes
  modify fun state => { state with includes := state.includes + 1 }
  return applyYield given nodes

/-- The text of a file without carriage returns. -/
def plainText (contents : String) : String :=
  String.ofList (contents.toList.filter (· ≠ '\r'))

mutual

/-- The nodes that take the place of a node when included files are put in theirs. -/
def includeFiles : Node → Linking (List Node)
  | .leaf span content => return [.leaf span content]
  | .branch span label children => do
      return [.branch span label (← includeAllFiles children)]
  | .file span use reference loaded children =>
      match use with
      | .inclusion _ => do
          let given ← includeAllFiles children
          match reference.root with
          | none => Linking.fail span (.unloadedFile reference.path)
          | some root =>
              let included ← linkNodes root loaded
              spliceIncluded included given
      | .raw [] =>
          match reference.contents with
          | none => Linking.fail span (.unloadedFile reference.path)
          | some contents => return [.leaf span (.text (plainText contents) false)]
      | _ => return [.file span use reference loaded children]

/-- The nodes that take the place of some nodes when included files are put in theirs. -/
def includeAllFiles : List Node → Linking (List Node)
  | [] => return []
  | node :: rest => do
      let nodes ← includeFiles node
      return nodes ++ (← includeAllFiles rest)

/-- Link the nodes of a template, whose first one may refer to an ancestor. -/
def linkNodes (root : Span) : List Node → Linking Linked
  | [] => return ⟨⟨root, []⟩, false⟩
  | .file span .inheritance reference loaded _ :: rest => do
      forbidInheritance rest
      let items ← rootItemsOfAll (← includeAllFiles rest)
      match reference.root with
      | none => Linking.fail span (.unloadedFile reference.path)
      | some ancestorRoot =>
          Linking.note (.ancestorEntered reference.path)
          let ancestor ← linkNodes ancestorRoot loaded
          return ⟨← inheritFrom items ancestor.document, true⟩
  | node :: rest => do
      forbidInheritance (node :: rest)
      let nodes ← includeFiles node
      return ⟨⟨root, nodes ++ (← includeAllFiles rest)⟩, false⟩

end

/-- Link a document with all files it refers to. -/
def linkDocument (document : Document) : Linking Document := do
  let linked ← linkNodes document.span document.nodes
  return { linked.document with nodes := dissolveAllBlocks linked.document.nodes }

/-- The one document that a template and its files make. -/
def link (document : Document) : EStateM (Diagnostic LinkFault) (Array Event) Document :=
  fun events =>
    match linkDocument document { events := events } with
    | .ok linked state =>
        .ok linked
          (state.events.push (.linked state.merged state.includes linked.nodes.length))
    | .error fault state => .error fault state.events

end Offside
