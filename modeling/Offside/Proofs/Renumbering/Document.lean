import Offside.Document.Basic
import Offside.Grammar.Text

/-!
# Other line numbers

A document in which every line number is exchanged for another one. Apart from the places it is the
same document: no definition but those that show places can tell the two apart.
-/

namespace Offside

variable (line : Nat → Nat)

/-- A span with another line number. -/
def Span.renumber (span : Span) : Span :=
  { span with line := line span.line }

def Attribute.renumber (entry : Attribute) : Attribute :=
  { entry with span := entry.span.renumber line }

def MixinHead.renumber (head : MixinHead) : MixinHead :=
  { head with attributes := head.attributes.map (Attribute.renumber line) }

def IncludeFilter.renumber (entry : IncludeFilter) : IncludeFilter :=
  { entry with
    span := entry.span.renumber line
    attributes := entry.attributes.map (Attribute.renumber line) }

def Reference.renumber (reference : Reference) : Reference :=
  { reference with
    span := reference.span.renumber line
    root := reference.root.map (Span.renumber line) }

def Leaf.renumber : Leaf → Leaf
  | .mixin head => .mixin (head.renumber line)
  | .mixinBlock => .mixinBlock
  | .yieldSlot => .yieldSlot
  | .text value html => .text value html
  | .code expression buffered escaped inLine => .code expression buffered escaped inLine
  | .comment value buffered => .comment value buffered
  | .doctype value => .doctype value

def Label.renumber : Label → Label
  | .block => .block
  | .namedBlock name mode => .namedBlock name mode
  | .tag head body =>
      .tag { head with attributes := head.attributes.map (Attribute.renumber line) }
        (body.renumber line)
  | .variableTag head body =>
      .variableTag { head with attributes := head.attributes.map (Attribute.renumber line) }
        (body.renumber line)
  | .mixin head body => .mixin (head.renumber line) (body.renumber line)
  | .blockComment value buffered body => .blockComment value buffered (body.renumber line)
  | .filter name attributes body =>
      .filter name (attributes.map (Attribute.renumber line)) (body.renumber line)

def FileUse.renumber : FileUse → FileUse
  | .inheritance => .inheritance
  | .inclusion body => .inclusion (body.renumber line)
  | .raw filters => .raw (filters.map (IncludeFilter.renumber line))

mutual

/-- A node with other line numbers. -/
def Node.renumber : Node → Node
  | .leaf span content => .leaf (span.renumber line) (content.renumber line)
  | .branch span label children =>
      .branch (span.renumber line) (label.renumber line) (Node.renumberAll children)
  | .file span use reference loaded children =>
      .file (span.renumber line) (use.renumber line) (reference.renumber line)
        (Node.renumberAll loaded) (Node.renumberAll children)

/-- Nodes with other line numbers. -/
def Node.renumberAll : List Node → List Node
  | [] => []
  | node :: rest => node.renumber :: Node.renumberAll rest

end

/-- A document with other line numbers. -/
def Document.renumber (document : Document) : Document :=
  ⟨document.span.renumber line, Node.renumberAll line document.nodes⟩

/-- A token with other line numbers. -/
def Token.renumber (token : Token) : Token :=
  { token with span := token.span.renumber line, stop := ⟨line token.stop.line, token.stop.column⟩ }

variable {line}

namespace Node

theorem renumberAll_eq_map (nodes : List Node) :
    renumberAll line nodes = nodes.map (renumber line) := by
  induction nodes with
  | nil => rfl
  | cons node rest ih => rw [renumberAll, ih, List.map_cons]

@[simp]
theorem renumberAll_nil : renumberAll line [] = [] := rfl

@[simp]
theorem renumberAll_cons (node : Node) (rest : List Node) :
    renumberAll line (node :: rest) = node.renumber line :: renumberAll line rest := rfl

@[simp]
theorem renumberAll_append (left right : List Node) :
    renumberAll line (left ++ right) = renumberAll line left ++ renumberAll line right := by
  simp [renumberAll_eq_map]

@[simp]
theorem renumber_leaf (span : Span) (content : Leaf) :
    (leaf span content).renumber line = leaf (span.renumber line) (content.renumber line) := rfl

@[simp]
theorem renumber_branch (span : Span) (label : Label) (children : List Node) :
    (branch span label children).renumber line =
      branch (span.renumber line) (label.renumber line) (renumberAll line children) := rfl

@[simp]
theorem renumber_file (span : Span) (use : FileUse) (reference : Reference)
    (loaded children : List Node) :
    (file span use reference loaded children).renumber line =
      file (span.renumber line) (use.renumber line) (reference.renumber line)
        (renumberAll line loaded) (renumberAll line children) := rfl

@[simp]
theorem span_renumber (node : Node) : (node.renumber line).span = node.span.renumber line := by
  cases node <;> rfl

end Node

/-! ### Renumbering twice, and not at all -/

section

variable {other : Nat → Nat}

@[simp]
theorem Span.renumber_renumber (span : Span) :
    (span.renumber line).renumber other = span.renumber fun number => other (line number) := rfl

@[simp]
theorem Attribute.renumber_renumber (entry : Attribute) :
    (entry.renumber line).renumber other = entry.renumber fun number => other (line number) := rfl

@[simp]
theorem MixinHead.renumber_renumber (head : MixinHead) :
    (head.renumber line).renumber other = head.renumber fun number => other (line number) := by
  simp [renumber, Function.comp_def]

@[simp]
theorem IncludeFilter.renumber_renumber (entry : IncludeFilter) :
    (entry.renumber line).renumber other = entry.renumber fun number => other (line number) := by
  simp [renumber, Function.comp_def]

@[simp]
theorem Reference.renumber_renumber (reference : Reference) :
    (reference.renumber line).renumber other =
      reference.renumber fun number => other (line number) := by
  simp [renumber, Function.comp_def]

@[simp]
theorem Leaf.renumber_renumber (content : Leaf) :
    (content.renumber line).renumber other =
      content.renumber fun number => other (line number) := by
  cases content <;> simp [renumber]

@[simp]
theorem Label.renumber_renumber (label : Label) :
    (label.renumber line).renumber other = label.renumber fun number => other (line number) := by
  cases label <;> simp [renumber, Function.comp_def]

@[simp]
theorem FileUse.renumber_renumber (use : FileUse) :
    (use.renumber line).renumber other = use.renumber fun number => other (line number) := by
  cases use <;> simp [renumber, Function.comp_def]

namespace Node

mutual

@[simp]
theorem renumber_renumber : ∀ node : Node,
    (node.renumber line).renumber other = node.renumber fun number => other (line number)
  | .leaf .. => by simp
  | .branch _ _ children => by simp [renumberAll_renumberAll children]
  | .file _ _ _ loaded children => by
      simp [renumberAll_renumberAll loaded, renumberAll_renumberAll children]

@[simp]
theorem renumberAll_renumberAll : ∀ nodes : List Node,
    renumberAll other (renumberAll line nodes) =
      renumberAll (fun number => other (line number)) nodes
  | [] => rfl
  | node :: rest => by simp [node.renumber_renumber, renumberAll_renumberAll rest]

end

end Node

end

section

@[simp]
theorem Span.renumber_id : renumber id = id := rfl

@[simp]
theorem Attribute.renumber_id : renumber id = id := rfl

@[simp]
theorem MixinHead.renumber_id : renumber id = id := by
  funext head
  simp [renumber]

@[simp]
theorem IncludeFilter.renumber_id : renumber id = id := by
  funext entry
  simp [renumber]

@[simp]
theorem Reference.renumber_id : renumber id = id := by
  funext reference
  simp [renumber]

@[simp]
theorem Leaf.renumber_id (content : Leaf) : content.renumber id = content := by
  cases content <;> simp [renumber]

@[simp]
theorem Label.renumber_id (label : Label) : label.renumber id = label := by
  cases label <;> simp [renumber]

@[simp]
theorem FileUse.renumber_id (use : FileUse) : use.renumber id = use := by
  cases use <;> simp [renumber]

namespace Node

mutual

@[simp]
theorem renumber_id : ∀ node : Node, node.renumber id = node
  | .leaf .. => by simp
  | .branch _ _ children => by simp [renumberAll_id children]
  | .file _ _ _ loaded children => by simp [renumberAll_id loaded, renumberAll_id children]

@[simp]
theorem renumberAll_id : ∀ nodes : List Node, renumberAll id nodes = nodes
  | [] => rfl
  | node :: rest => by simp [node.renumber_id, renumberAll_id rest]

end

end Node

end

end Offside
