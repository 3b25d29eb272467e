import Mathlib.Logic.Relation
import Offside.Inheritance.Link
import Offside.Proofs.Contract.Stage

/-!
# Templates that build on others

A loaded document holds the templates that it includes and the one that it extends, and these hold
others in turn. One that extends another is linked in two steps: first its own items and its linked
ancestor are found, and then the items are merged into the ancestor.

In a chain each template extends the one before it, down to a base that extends none. An extension
holds named blocks and declarations of mixins, and nothing else. What the chain makes of the base is
told block by block: the content of a block is that of the base, with all blocks of its name put
over it, from the oldest extension to the newest.
-/

namespace Offside

/-! ### References to other templates -/

namespace Node

/-- All templates that are included by some nodes have a property. -/
def AllIncluded (holds : Document → Prop) (nodes : List Node) : Prop :=
  ∀ span body reference loaded children root,
    .file span (.inclusion body) reference loaded children ∈ nodes → reference.root = some root →
      holds ⟨root, loaded⟩

variable {holds : Document → Prop}

@[simp]
theorem allIncluded_nil : AllIncluded holds [] := by simp [AllIncluded]

@[simp]
theorem allIncluded_append {front behind : List Node} :
    AllIncluded holds (front ++ behind) ↔ AllIncluded holds front ∧ AllIncluded holds behind := by
  simp only [AllIncluded, List.mem_append, or_imp, forall_and]

@[simp]
theorem allIncluded_walk_leaf {span : Span} {content : Leaf} :
    AllIncluded holds (Node.leaf span content).walk := by simp [AllIncluded, walk]

@[simp]
theorem allIncluded_walk_branch {span : Span} {label : Label} {children : List Node} :
    AllIncluded holds (Node.branch span label children).walk ↔
      AllIncluded holds (walkAll children) := by simp [AllIncluded, walk]

theorem allIncluded_walk_inclusion {span body : Span} {reference : Reference}
    {loaded children : List Node} :
    AllIncluded holds (Node.file span (.inclusion body) reference loaded children).walk ↔
      (∀ root, reference.root = some root → holds ⟨root, loaded⟩) ∧
        AllIncluded holds (walkAll children) := by
  simp only [AllIncluded, walk, List.mem_cons, or_imp, forall_and]
  refine and_congr_left fun _ => ⟨fun all root known => ?_, ?_⟩
  · exact all span body reference loaded children root rfl known
  · rintro first _ _ _ _ _ root ⟨⟩ known
    exact first root known

/-- Only an inclusion includes a template. -/
theorem allIncluded_walk_file {span : Span} {use : FileUse} {reference : Reference}
    {loaded children : List Node} (other : ∀ body, use ≠ .inclusion body) :
    AllIncluded holds (Node.file span use reference loaded children).walk := by
  cases use with
  | inclusion body => exact absurd rfl (other body)
  | raw filters => simp [AllIncluded, walk]
  | inheritance => simp [AllIncluded, walk]

end Node

/-- A template refers to another one, which is loaded: it extends it or includes it. -/
inductive Document.Refers (document : Document) : Document → Prop
  | extension {span root : Span} {reference : Reference} {loaded children : List Node}
      (found : .file span .inheritance reference loaded children ∈ document.walk)
      (known : reference.root = some root) : Refers document ⟨root, loaded⟩
  | inclusion {span body root : Span} {reference : Reference} {loaded children : List Node}
      (found : .file span (.inclusion body) reference loaded children ∈ document.walk)
      (known : reference.root = some root) : Refers document ⟨root, loaded⟩

/-- Another template is reached by references, over any number of others. -/
abbrev Document.Reaches : Document → Document → Prop :=
  Relation.ReflTransGen Document.Refers

/-! ### An extending template -/

/-- A loaded template that extends another one: where it begins, its reference to the other one,
what is known of that one, and its own nodes. -/
structure Descendant where
  root : Span
  span : Span
  reference : Reference
  loaded : List Node
  children : List Node
  nodes : List Node

namespace Descendant

/-- The template as a document. -/
def document (template : Descendant) : Document where
  span := template.root
  nodes :=
    .file template.span .inheritance template.reference template.loaded template.children ::
      template.nodes

/-- The items at the top level of the template, and its linked ancestor before anything is merged
into that. -/
def parts (template : Descendant) : Linking (List RootItem × Document) := do
  forbidInheritance template.nodes
  let items ← rootItemsOfAll (← includeAllFiles template.nodes)
  match template.reference.root with
  | none => Linking.fail template.span (.unloadedFile template.reference.path)
  | some ancestorRoot =>
      Linking.note (.ancestorEntered template.reference.path)
      let ancestor ← linkNodes ancestorRoot template.loaded
      return (items, ancestor.document)

theorem linkNodes_document (template : Descendant) :
    linkNodes template.document.span template.document.nodes = do
      let parts ← template.parts
      return ⟨← inheritFrom parts.1 parts.2, true⟩ := by
  unfold linkNodes
  simp only [document, parts, bind_assoc]
  cases template.reference.root with
  | none => rfl
  | some ancestorRoot => simp only [bind_assoc, pure_bind]

end Descendant

/-! ### Templates in a chain -/

namespace Shape

/-- There are no files. -/
def whole : Shape where
  branch _ := True
  raw _ _ := False

/-- There are no files and no named blocks. -/
def plain : Shape where
  branch label := ∀ name mode, label ≠ .namedBlock name mode
  raw _ _ := False

theorem fileless_whole : whole.Fileless :=
  fun _ _ => id

theorem fileless_plain : plain.Fileless :=
  fun _ _ => id

theorem blockless_plain : plain.Blockless :=
  fun _ => id

end Shape

mutual

/-- The node refers to no file, and no named block in it stands inside another one. -/
def Node.HasFlatBlocks : Node → Prop
  | .leaf .. => True
  | .branch _ (.namedBlock ..) children => Node.HaveAll .plain children
  | .branch _ _ children => Node.HaveFlatBlocks children
  | .file .. => False

/-- No node refers to a file, and no named block stands inside another one. -/
def Node.HaveFlatBlocks : List Node → Prop
  | [] => True
  | node :: rest => node.HasFlatBlocks ∧ Node.HaveFlatBlocks rest

end

namespace Node

/-- Whether a node declares a mixin. -/
def isDeclaration : Node → Bool
  | leaf _ (.mixin head) => !head.isCall
  | branch _ (.mixin head _) _ => !head.isCall
  | _ => false

/-- The named block that a node is. -/
def rootBlock? : Node → Option RootBlock
  | branch span (.namedBlock name mode) children => some ⟨span, name, mode, children⟩
  | _ => none

/-- A node is a declaration or a named block, with no file and no named block in it. -/
structure FitsRoot (node : Node) : Prop where
  kind : node.isDeclaration = true ∨ node.rootBlock?.isSome
  plain : HaveAll .plain (node.children?.getD [])

end Node

/-- A loaded template that extends another one: where it begins, its reference to the other one, and
the nodes behind that reference. -/
structure Extension where
  root : Span
  span : Span
  reference : Reference
  nodes : List Node
  fits : ∀ node ∈ nodes, node.FitsRoot

namespace Extension

/-- The declarations of mixins, in order. -/
def declarations (extension : Extension) : List Node :=
  extension.nodes.filter Node.isDeclaration

/-- The named blocks, in order. -/
def blocks (extension : Extension) : List RootBlock :=
  extension.nodes.filterMap Node.rootBlock?

/-- The blocks of one name, in order. -/
def blocksNamed (name : String) (extension : Extension) : List RootBlock :=
  extension.blocks.filter fun block => block.name = name

/-- The template as a document, when the one that it extends is loaded. -/
def document (ancestor : Document) (extension : Extension) : Document where
  span := extension.root
  nodes :=
    .file extension.span .inheritance { extension.reference with root := some ancestor.span }
      ancestor.nodes [] :: extension.nodes

/-- The last document of a chain: each template extends the one before it. -/
def chain (base : Document) (extensions : List Extension) : Document :=
  extensions.foldl document base

/-- Two extensions hold the same declarations and, for each name, the same blocks; blocks of
different names may stand in any order. -/
structure SameBlocks (first second : Extension) : Prop where
  declarations : first.declarations = second.declarations
  blocks : ∀ name, first.blocksNamed name = second.blocksNamed name

end Extension

/-- New content for a block with some content: the mode tells whether it takes the place of the old
one, or comes behind it or in front of it. -/
def RootBlock.applyTo (old : List Node) (block : RootBlock) : List Node :=
  match block.mode with
  | .replace => block.nodes
  | .append => old ++ block.nodes
  | .prepend => block.nodes ++ old

/-- The content of a block after all extensions. -/
def inheritedContent (extensions : List Extension) (name : String) (old : List Node) :
    List Node :=
  (extensions.flatMap (Extension.blocksNamed name)).foldl RootBlock.applyTo old

mutual

/-- The nodes in place of a node: named blocks are dissolved, and those that can be replaced have
other content. -/
def Node.fill (content : String → List Node → List Node) : Node → List Node
  | .leaf span value => [.leaf span value]
  | .branch _ (.namedBlock name .replace) children => content name children
  | .branch _ (.namedBlock ..) children => Node.fillAll content children
  | .branch span label children => [.branch span label (Node.fillAll content children)]
  | .file span use reference loaded children => [.file span use reference loaded children]

/-- The nodes in place of some nodes. -/
def Node.fillAll (content : String → List Node → List Node) : List Node → List Node
  | [] => []
  | node :: rest => node.fill content ++ Node.fillAll content rest

end

/-- The names of the blocks that can be replaced. -/
def Document.replaceable (document : Document) (name : String) : Prop :=
  ∃ span children, .branch span (.namedBlock name .replace) children ∈ document.walk

end Offside
