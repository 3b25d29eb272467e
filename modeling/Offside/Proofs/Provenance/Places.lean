import Offside.Proofs.Contract.Filtering
import Offside.Proofs.Contract.Linking
import Offside.Proofs.Contract.Rendering
import Offside.Proofs.Contract.Stage

/-!
# The places in a document

A node carries spans: its own, that of its body, and those of its attributes, of the filters of an
included file and of the reference to that file. A property of spans holds throughout a document if
it holds of all of them.

Linking moves nodes between documents, filtering puts texts in the place of some of them, and
rendering keeps the bodies of mixins for their calls. On all these ways a node keeps its spans. What
goes wrong goes wrong at a span of some node, and it is left open what the text there is.
-/

namespace Offside

/-- The attributes of a node without a body. -/
def Leaf.attributes : Leaf → List Attribute
  | .mixin head => head.attributes
  | .mixinBlock | .yieldSlot | .text .. | .code .. | .comment .. | .doctype .. => []

/-- The attributes of a node with a body. -/
def Label.attributes : Label → List Attribute
  | .tag head _ => head.attributes
  | .variableTag head _ => head.attributes
  | .mixin head _ => head.attributes
  | .filter _ attributes _ => attributes
  | .block | .namedBlock .. | .blockComment .. => []

/-- The spans of a filter of an included file. -/
def IncludeFilter.places (entry : IncludeFilter) : List Span :=
  entry.span :: entry.attributes.map (·.span)

/-- The spans in what another file is used for. -/
def FileUse.places : FileUse → List Span
  | .inheritance => []
  | .inclusion body => [body]
  | .raw filters => filters.flatMap IncludeFilter.places

/-- The spans of the attributes of a node without a body. -/
def Leaf.places (content : Leaf) : List Span :=
  content.attributes.map (·.span)

/-- The spans of the body and of the attributes of a node with a body. -/
def Label.places (label : Label) : List Span :=
  label.body?.toList ++ label.attributes.map (·.span)

@[simp]
theorem Label.places_block : block.places = [] := rfl

@[simp]
theorem Label.places_namedBlock (name : String) (mode : BlockMode) :
    (namedBlock name mode).places = [] := rfl

mutual

/-- The spans of a node and of the nodes in it, the loaded ones among them. -/
def Node.places : Node → List Span
  | .leaf span content => span :: content.places
  | .branch span label children => span :: (label.places ++ Node.placesAll children)
  | .file span use reference loaded children =>
      span :: reference.span :: (use.places ++ Node.placesAll loaded ++ Node.placesAll children)

/-- The spans of some nodes and of the nodes in them. -/
def Node.placesAll : List Node → List Span
  | [] => []
  | node :: rest => node.places ++ Node.placesAll rest

end

namespace Node

variable {spans : Span → Prop}

/-- All spans of a node and of the nodes in it have a property. -/
def Placed (spans : Span → Prop) (node : Node) : Prop :=
  ∀ span ∈ node.places, spans span

theorem forall_mem_placesAll {nodes : List Node} :
    (∀ span ∈ placesAll nodes, spans span) ↔ Every (Placed spans) nodes := by
  induction nodes with
  | nil => simp [placesAll]
  | cons node rest ih => rw [placesAll, List.forall_mem_append, ih, every_cons, Placed]

theorem placed_leaf {span : Span} {content : Leaf} :
    (leaf span content).Placed spans ↔ spans span ∧ ∀ place ∈ content.places, spans place := by
  rw [Placed, places, List.forall_mem_cons]

/-- A node that has neither a body nor attributes. -/
theorem placed_leaf_of_plain {span : Span} {content : Leaf} (placed : spans span)
    (plain : content.attributes = []) : (leaf span content).Placed spans :=
  placed_leaf.mpr ⟨placed, by simp [Leaf.places, plain]⟩

theorem placed_branch {span : Span} {label : Label} {children : List Node} :
    (branch span label children).Placed spans ↔
      spans span ∧ (∀ place ∈ label.places, spans place) ∧ Every (Placed spans) children := by
  rw [Placed, places, List.forall_mem_cons, List.forall_mem_append, forall_mem_placesAll]

theorem placed_file {span : Span} {use : FileUse} {reference : Reference}
    {loaded children : List Node} :
    (file span use reference loaded children).Placed spans ↔
      spans span ∧ spans reference.span ∧ (∀ place ∈ use.places, spans place) ∧
        Every (Placed spans) loaded ∧ Every (Placed spans) children := by
  rw [Placed, places, List.forall_mem_cons, List.forall_mem_cons, List.forall_mem_append,
    List.forall_mem_append, forall_mem_placesAll, forall_mem_placesAll, and_assoc]

theorem Placed.span {node : Node} (placed : node.Placed spans) : spans node.span := by
  cases node with
  | leaf => exact (placed_leaf.mp placed).1
  | branch => exact (placed_branch.mp placed).1
  | file => exact (placed_file.mp placed).1

theorem Placed.mono {others : Span → Prop} (within : ∀ span, spans span → others span)
    {node : Node} (placed : node.Placed spans) : node.Placed others :=
  fun span found => within span (placed span found)

instance : Hereditary (Placed spans) where
  children := by
    intro node placed
    cases node with
    | leaf => exact every_nil
    | branch => exact (placed_branch.mp placed).2.2
    | file _ use =>
        cases use with
        | inclusion => exact (placed_file.mp placed).2.2.2.2
        | raw | inheritance => exact every_nil

end Node

/-- All spans of a block have a property, its own among them. -/
structure Document.Placed (spans : Span → Prop) (document : Document) : Prop where
  root : spans document.span
  nodes : Node.Every (Node.Placed spans) document.nodes

/-! ### Places in the later stages -/

/-- Something wrong at a span with a property, without the text. -/
structure Diagnostic.StandsAt {κ : Type} (spans : Span → Prop) (diagnostic : Diagnostic κ) :
    Prop where
  span : spans diagnostic.span
  source : diagnostic.source = none

namespace Node

variable {spans : Span → Prop}

instance : Movable (Placed spans) where
  branch placed filled := by
    rw [placed_branch] at placed ⊢
    exact ⟨placed.1, placed.2.1, filled placed.2.2⟩
  inclusion placed filled := by
    rw [placed_file] at placed ⊢
    exact ⟨placed.1, placed.2.1, placed.2.2.1, placed.2.2.2.1, filled placed.2.2.2.2⟩
  block placed := (placed_branch.mp placed).2.2
  namedBlock placed := (placed_branch.mp placed).2.2

theorem blames_placed : Blames (Placed spans) (Diagnostic.StandsAt spans) :=
  fun _ _ placed _ => ⟨placed.span, rfl⟩

theorem joins_placed : Joins (Placed spans) (Placed spans) (Diagnostic.StandsAt spans) where
  leaf := id
  branch placed filled := by
    rw [placed_branch] at placed ⊢
    exact ⟨placed.1, placed.2.1, filled⟩
  template placed _ := (placed_file.mp placed).2.2.2.1
  unloaded placed _ _ := ⟨placed.span, rfl⟩
  text placed := placed_leaf_of_plain placed.span rfl
  unread placed _ := ⟨placed.span, rfl⟩
  filtered placed _ := placed
  blames := blames_placed
  blamesLinked := blames_placed

theorem filters_placed :
    Filters (Placed spans) (Placed spans) (Diagnostic.StandsAt spans) where
  leaf := id
  branch placed _ filtered := by
    rw [placed_branch] at placed ⊢
    exact ⟨placed.1, placed.2.1, filtered⟩
  inclusion placed filtered := by
    rw [placed_file] at placed ⊢
    exact ⟨placed.1, placed.2.1, placed.2.2.1, placed.2.2.2.1, filtered⟩
  inheritance := id
  unfiltered := id
  text placed := placed_leaf_of_plain placed.span rfl
  blames placed _ := ⟨placed.span, rfl⟩
  blamesEntry placed member _ :=
    ⟨(placed_file.mp placed).2.2.1 _ (List.mem_flatMap_of_mem member (List.mem_cons_self ..)), rfl⟩
  unread placed _ _ := ⟨placed.span, rfl⟩

theorem renders_placed : Renders (Placed spans) (Diagnostic.StandsAt spans) where
  children placed := (placed_branch.mp placed).2.2
  blames placed _ := ⟨placed.span, rfl⟩
  namedBlock placed := ⟨placed.span, rfl⟩
  filter placed := ⟨placed.span, rfl⟩
  file placed := ⟨placed.span, rfl⟩

end Node

end Offside
