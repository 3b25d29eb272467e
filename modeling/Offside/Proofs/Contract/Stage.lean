import Offside.Document.Basic
import Offside.Failure

/-!
# What each stage leaves to the next one

Between the stages stand four shapes of documents. A document that was just read has only open
references, and one that was loaded has only filled ones. A linked document refers to no file but
those that go through filters, and has no named block. A finished document has no filter either.
-/

namespace Offside

namespace Node

/-- All nodes of a list have a property. -/
def Every (holds : Node → Prop) (nodes : List Node) : Prop :=
  ∀ node ∈ nodes, holds node

section

variable {holds : Node → Prop}

@[simp]
theorem every_nil : Every holds [] := by simp [Every]

@[simp]
theorem every_cons {node : Node} {rest : List Node} :
    Every holds (node :: rest) ↔ holds node ∧ Every holds rest :=
  List.forall_mem_cons

@[simp]
theorem every_append {left right : List Node} :
    Every holds (left ++ right) ↔ Every holds left ∧ Every holds right :=
  List.forall_mem_append

theorem Every.concat {nodes : List Node} {last : Node} (before : Every holds nodes)
    (found : holds last) : Every holds (nodes ++ [last]) := by
  simp [before, found]

theorem Every.single {node : Node} (found : holds node) : Every holds [node] := by
  simp [found]

theorem every_walkAll_iff {nodes : List Node} :
    Every holds (walkAll nodes) ↔ Every (fun node => Every holds node.walk) nodes := by
  induction nodes with
  | nil => simp [walkAll]
  | cons node rest ih => simp [walkAll, ih]

/-- A property of nodes that passes to the nodes of their bodies. -/
class Hereditary (holds : Node → Prop) : Prop where
  children : ∀ {node : Node}, holds node → Every holds (node.children?.getD [])

instance : Hereditary fun _ => True where
  children _ := fun _ _ => trivial

mutual

theorem every_walk [Hereditary holds] : ∀ {node : Node}, holds node → Every holds node.walk
  | .leaf .., found => by
      unfold walk
      exact .single found
  | .branch .., found => by
      unfold walk
      exact every_cons.mpr ⟨found, every_walkAll (Hereditary.children found)⟩
  | .file _ use _ _ _, found => by
      cases use with
      | inclusion body =>
          unfold walk
          exact every_cons.mpr ⟨found, every_walkAll (Hereditary.children found)⟩
      | raw | inheritance =>
          unfold walk
          exact .single found

theorem every_walkAll [Hereditary holds] : ∀ {nodes : List Node}, Every holds nodes →
    Every holds (walkAll nodes)
  | [], _ => every_nil
  | _ :: _, found => by
      rw [every_cons] at found
      unfold walkAll
      exact every_append.mpr ⟨every_walk found.1, every_walkAll found.2⟩

end

end

end Node

/-- A stage blames an earlier one: it was given a reference to a file that was never read, or a kind
of node that should be gone. -/
def Failure.BlamesStage : Failure → Prop
  | .link diagnostic => ∃ path, diagnostic.cause = .unloadedFile path
  | .filter diagnostic => ∃ path, diagnostic.cause = .unloadedFile path
  | .render diagnostic => ∃ kind, diagnostic.cause = .unsupportedNode kind
  | .token _ | .parse _ | .load _ => False

/-- Nothing is known of the file of a reference but the path that is written. -/
def Reference.Open (reference : Reference) : Prop :=
  reference = { span := reference.span, path := reference.path }

/-- The file of a reference was found and read. -/
structure Reference.Read (reference : Reference) : Prop where
  fullPath : reference.fullPath.isSome
  contents : reference.contents.isSome
  bytes : reference.bytes.isSome

mutual

/-- Nothing is known yet of the files to which the node and the nodes in it refer. -/
def Node.Unread : Node → Prop
  | .leaf .. => True
  | .branch _ _ children => Node.UnreadAll children
  | .file _ _ reference loaded children =>
      reference.contents = none ∧ loaded = [] ∧ Node.UnreadAll children

/-- Nothing is known yet of the files to which some nodes refer. -/
def Node.UnreadAll : List Node → Prop
  | [] => True
  | node :: rest => node.Unread ∧ Node.UnreadAll rest

end

namespace Node

@[simp]
theorem unreadAll_nil : UnreadAll [] := trivial

@[simp]
theorem unreadAll_cons {node : Node} {rest : List Node} :
    UnreadAll (node :: rest) ↔ node.Unread ∧ UnreadAll rest := Iff.rfl

theorem unreadAll_iff_every {nodes : List Node} : UnreadAll nodes ↔ Every Unread nodes := by
  induction nodes with
  | nil => simp
  | cons node rest ih => simp [ih]

@[simp]
theorem unread_leaf {span : Span} {content : Leaf} : (Node.leaf span content).Unread := trivial

@[simp]
theorem unread_branch {span : Span} {label : Label} {children : List Node} :
    (Node.branch span label children).Unread ↔ UnreadAll children := Iff.rfl

end Node

mutual

/-- The node and the nodes in it refer only to files that were read, and so do the nodes of those
that are templates. -/
def Node.Filled : Node → Prop
  | .leaf .. => True
  | .branch _ _ children => Node.FilledAll children
  | .file _ use reference loaded children =>
      match use with
      | .raw _ => reference.Read
      | .inheritance => reference.Read ∧ reference.root.isSome ∧ Node.FilledAll loaded
      | .inclusion _ =>
          reference.Read ∧ reference.root.isSome ∧ Node.FilledAll loaded ∧ Node.FilledAll children

/-- Some nodes refer only to files that were read, and so do the nodes of those that are templates.
-/
def Node.FilledAll : List Node → Prop
  | [] => True
  | node :: rest => node.Filled ∧ Node.FilledAll rest

end

/-- What may occur in a document in which all templates are in their places. -/
structure Shape where
  branch : Label → Prop
  raw : List IncludeFilter → Reference → Prop

namespace Shape

/-- All templates are in their places; what is left are files that go through filters. -/
def joined : Shape where
  branch _ := True
  raw filters reference := filters ≠ [] ∧ reference.Read

/-- The named blocks are dissolved, too. -/
def linked : Shape where
  branch label := ∀ name mode, label ≠ .namedBlock name mode
  raw := joined.raw

/-- All templates are in their places, and every file that is left goes through filters, whatever is
known of it. -/
def merged : Shape where
  branch _ := True
  raw filters _ := filters ≠ []

/-- The normal form of linking: the named blocks are dissolved, too. -/
def normal : Shape where
  branch label := ∀ name mode, label ≠ .namedBlock name mode
  raw := merged.raw

/-- There are no filters any more, and no files. -/
def finished : Shape where
  branch label := (∀ name mode, label ≠ .namedBlock name mode) ∧
    ∀ name attributes body, label ≠ .filter name attributes body
  raw _ _ := False

/-- No file occurs. -/
def Fileless (shape : Shape) : Prop :=
  ∀ filters reference, ¬shape.raw filters reference

/-- Every file goes through filters. -/
def Filtered (shape : Shape) : Prop :=
  ∀ filters reference, shape.raw filters reference → filters ≠ []

/-- No named block occurs. -/
def Blockless (shape : Shape) : Prop :=
  ∀ label, shape.branch label → ∀ name mode, label ≠ .namedBlock name mode

theorem blockless_finished : finished.Blockless :=
  fun _ branch => branch.1

theorem filtered_normal : normal.Filtered :=
  fun _ _ => id

theorem blockless_normal : normal.Blockless :=
  fun _ => id

theorem Fileless.filtered {shape : Shape} (fileless : shape.Fileless) : shape.Filtered :=
  fun filters reference raw => absurd raw (fileless filters reference)

end Shape

mutual

/-- The node has a shape, at every depth. -/
def Node.Has (shape : Shape) : Node → Prop
  | .leaf .. => True
  | .branch _ label children => shape.branch label ∧ Node.HaveAll shape children
  | .file _ use reference _ _ =>
      match use with
      | .raw filters => shape.raw filters reference
      | .inclusion _ | .inheritance => False

/-- Some nodes have a shape, at every depth. -/
def Node.HaveAll (shape : Shape) : List Node → Prop
  | [] => True
  | node :: rest => node.Has shape ∧ Node.HaveAll shape rest

end

section

variable {shape : Shape} [DecidablePred shape.branch]
  [∀ filters reference, Decidable (shape.raw filters reference)]

mutual

/-- Whether a node has a shape can be computed where the shape can. -/
def Node.decidableHas : ∀ node : Node, Decidable (node.Has shape)
  | .leaf .. => isTrue trivial
  | .branch _ label children =>
      have := Node.decidableHaveAll children
      inferInstanceAs (Decidable (shape.branch label ∧ Node.HaveAll shape children))
  | .file _ use reference _ _ =>
      match use with
      | .raw filters => inferInstanceAs (Decidable (shape.raw filters reference))
      | .inclusion _ | .inheritance => isFalse id

/-- Whether nodes have a shape can be computed where the shape can. -/
def Node.decidableHaveAll : ∀ nodes : List Node, Decidable (Node.HaveAll shape nodes)
  | [] => isTrue trivial
  | node :: rest =>
      have := Node.decidableHas node
      have := Node.decidableHaveAll rest
      inferInstanceAs (Decidable (node.Has shape ∧ Node.HaveAll shape rest))

end

instance (nodes : List Node) : Decidable (Node.HaveAll shape nodes) :=
  Node.decidableHaveAll nodes

end

namespace Node

variable {shape : Shape}

@[simp]
theorem haveAll_nil : HaveAll shape [] := trivial

@[simp]
theorem haveAll_cons {node : Node} {rest : List Node} :
    HaveAll shape (node :: rest) ↔ node.Has shape ∧ HaveAll shape rest := Iff.rfl

@[simp]
theorem haveAll_append {left right : List Node} :
    HaveAll shape (left ++ right) ↔ HaveAll shape left ∧ HaveAll shape right := by
  induction left with
  | nil => simp
  | cons node rest ih => simp [ih, and_assoc]

theorem haveAll_iff_every {nodes : List Node} : HaveAll shape nodes ↔ Every (Has shape) nodes := by
  induction nodes with
  | nil => simp
  | cons node rest ih => simp [ih]

instance : Hereditary (Has shape) where
  children := by
    intro node has
    cases node with
    | leaf => exact every_nil
    | branch => exact haveAll_iff_every.mp has.2
    | file span use =>
        cases use with
        | inclusion => exact has.elim
        | raw | inheritance => exact every_nil

@[simp]
theorem has_leaf {span : Span} {content : Leaf} : (Node.leaf span content).Has shape := trivial

mutual

theorem Has.mono {other : Shape} (branches : ∀ label, shape.branch label → other.branch label)
    (files : ∀ filters reference, shape.raw filters reference → other.raw filters reference) :
    ∀ {node : Node}, node.Has shape → node.Has other
  | .leaf .., _ => trivial
  | .branch .., has => ⟨branches _ has.1, HaveAll.mono branches files has.2⟩
  | .file _ use _ _ _, has => by
      cases use with
      | raw filters => exact files _ _ has
      | inclusion body => exact has.elim
      | inheritance => exact has.elim

theorem HaveAll.mono {other : Shape} (branches : ∀ label, shape.branch label → other.branch label)
    (files : ∀ filters reference, shape.raw filters reference → other.raw filters reference) :
    ∀ {nodes : List Node}, HaveAll shape nodes → HaveAll other nodes
  | [], _ => trivial
  | _ :: _, has => ⟨has.1.mono branches files, HaveAll.mono branches files has.2⟩

end

end Node

theorem Shape.Fileless.not_has_file {shape : Shape} (fileless : shape.Fileless) {span : Span}
    {use : FileUse} {reference : Reference} {loaded children : List Node} :
    ¬(Node.file span use reference loaded children).Has shape := by
  intro has
  cases use with
  | raw filters => exact fileless filters reference has
  | inclusion body => exact has.elim
  | inheritance => exact has.elim

end Offside
