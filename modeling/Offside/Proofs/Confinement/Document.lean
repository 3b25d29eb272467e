import Offside.Proofs.Contract.Composition
import Offside.Proofs.Contract.Loading

/-!
# Where the block of a call may stand

The place for the block of a call makes sense in the body of a mixin. The grammar takes it nowhere
else, however deep the declaration of the mixin is nested and whatever is nested in it, and loading
adds nothing but documents that the grammar has read.
-/

namespace Offside

open Computing

/-- Whether a branch is the declaration of a mixin. -/
def Label.declaresMixin : Label → Bool
  | mixin head _ => !head.isCall
  | _ => false

mutual

/-- There is no place for the block of a call in the node, nor in the files that it refers to, but
in the declarations of mixins. -/
def Node.Confined : Node → Prop
  | .leaf _ content => content ≠ .mixinBlock
  | .branch _ label children => label.declaresMixin = true ∨ Node.ConfinedAll children
  | .file _ _ _ loaded children => Node.ConfinedAll loaded ∧ Node.ConfinedAll children

/-- There is no place for the block of a call in some nodes but in the declarations of mixins. -/
def Node.ConfinedAll : List Node → Prop
  | [] => True
  | node :: rest => node.Confined ∧ Node.ConfinedAll rest

end

namespace Node

theorem confinedAll_iff_every {nodes : List Node} : ConfinedAll nodes ↔ Every Confined nodes := by
  induction nodes with
  | nil => simp [ConfinedAll]
  | cons node rest ih => simp [ConfinedAll, ih]

mutual

/-- Whether a node is confined can be computed. -/
def decidableConfined : ∀ node : Node, Decidable node.Confined
  | .leaf _ content => inferInstanceAs (Decidable (content ≠ .mixinBlock))
  | .branch _ label children =>
      have := decidableConfinedAll children
      inferInstanceAs (Decidable (label.declaresMixin = true ∨ ConfinedAll children))
  | .file _ _ _ loaded children =>
      have := decidableConfinedAll loaded
      have := decidableConfinedAll children
      inferInstanceAs (Decidable (ConfinedAll loaded ∧ ConfinedAll children))

/-- Whether nodes are confined can be computed. -/
def decidableConfinedAll : ∀ nodes : List Node, Decidable (ConfinedAll nodes)
  | [] => isTrue trivial
  | node :: rest =>
      have := decidableConfined node
      have := decidableConfinedAll rest
      inferInstanceAs (Decidable (node.Confined ∧ ConfinedAll rest))

end

instance (nodes : List Node) : Decidable (ConfinedAll nodes) :=
  decidableConfinedAll nodes

/-- In the declaration of a mixin everything is confined. -/
def ConfinedIn (inMixin : Bool) (node : Node) : Prop :=
  inMixin = false → node.Confined

theorem every_confinedIn {inMixin : Bool} {nodes : List Node} (outside : inMixin = false)
    (confined : Every (ConfinedIn inMixin) nodes) : ConfinedAll nodes :=
  confinedAll_iff_every.mpr fun node member => confined node member outside

instance : ComposedIn ConfinedIn where
  composed inMixin := {
    leaf := fun other _ _ => other
    branch := fun _ confined outside => .inr (every_confinedIn outside confined)
    file := fun _ confined outside => ⟨trivial, every_confinedIn outside confined⟩
    dissolve := fun confined node member outside =>
      confinedAll_iff_every.mp ((confined outside).resolve_left (by simp [Label.declaresMixin]))
        node member }
  mixinBlock := nofun
  declaration := fun _ _ => .inl rfl

end Node

/-- The grammar confines the block of a call. -/
theorem confinedAll_parse (tokens : List Token) (file source : Option String) :
    Satisfies (parse tokens { file, source }) (fun document => Node.ConfinedAll document.nodes)
      fun _ => True :=
  (satisfies_parse Node.ConfinedIn tokens file source).mono
    (fun _ => Node.every_confinedIn rfl) fun _ _ => trivial

theorem confinedAll_ofSource (file : Option String) (source : String) :
    Satisfies (Document.ofSource {} file source) (fun document => Node.ConfinedAll document.nodes)
      fun _ => True :=
  (satisfies_ofSource Node.ConfinedIn file source).mono
    (fun _ => Node.every_confinedIn rfl) fun _ _ => trivial

/-- Where no mixin is declared, the grammar refuses a place for the block of a call, and says so. -/
theorem expressionRule_mixinBlock (hooks : Hooks) (layer : Bool → Grammar) (budget : Nat)
    (stream : TokenStream) (isBlock : stream.next.kind = .mixinBlock) :
    Grammar.expressionRule hooks layer false budget stream =
      .error (.fault (stream.fault stream.next.span .blockOutsideMixin))
        { stream with pending := stream.pending.tail } := by
  unfold Grammar.expressionRule
  simp only [Parsing.peek, Parsing.place, Parsing.advance, Parsing.fail, bind_assoc, pure_bind,
    get_bind_eq, isBlock]
  rfl

/-! ### Loading -/

/-- Deeper levels, if there are any, keep documents confined. -/
def Loading.Deeper.Confines (deeper : Loading.Deeper) : Prop :=
  ∀ loads ∈ deeper, ∀ origin nodes, Node.ConfinedAll nodes →
    Satisfies (loads origin nodes) Node.ConfinedAll fun _ => True

section

variable {options : LoadOptions} {deeper : Loading.Deeper}

theorem confined_loadTemplate (plain : options.extensions = {}) (confines : deeper.Confines)
    (origin : Origin) (span : Span) (path contents : String) :
    Satisfies (loadTemplate options deeper origin span path contents)
      (fun document => Node.ConfinedAll document.nodes) fun _ => True := by
  cases deeper with
  | none => exact .throw trivial
  | some loads =>
      have reads : Satisfies (Loading.noting
          (Document.ofSource options.extensions (some path) contents))
          (fun document => Node.ConfinedAll document.nodes) fun _ => True := by
        rw [plain]
        exact Loading.satisfies_noting (confinedAll_ofSource _ _)
      exact .bind reads fun document confined =>
        .bind (confines loads rfl _ _ confined) fun nodes loaded => .pure loaded

theorem confined_loadReference (plain : options.extensions = {}) (confines : deeper.Confines)
    (origin : Origin) (span : Span) (use : FileUse) (reference : Reference) {loaded : List Node}
    (before : Node.ConfinedAll loaded) :
    Satisfies (loadReference options deeper origin span use reference loaded)
      (fun found => Node.ConfinedAll found.2) fun _ => True := by
  unfold loadReference
  split
  · exact .pure before
  · apply Satisfies.bind (.trivial _)
    intro path _
    apply Satisfies.bind (.trivial _)
    intro bytes _
    apply Satisfies.bind (.trivial _)
    intro _ _
    cases use with
    | raw filters => exact .pure before
    | inclusion | inheritance =>
        exact .bind (confined_loadTemplate plain confines _ _ _ _) fun _ confined => .pure confined

mutual

theorem confined_loadNode (plain : options.extensions = {}) (confines : deeper.Confines)
    (origin : Origin) : ∀ {node : Node}, node.Confined →
      Satisfies (loadNode options deeper origin node) Node.Confined fun _ => True
  | .leaf .., confined => by
      unfold loadNode
      exact .pure confined
  | .branch _ _ children, confined => by
      have inside : Satisfies (loadNodes options deeper origin children)
          (fun loaded => Node.ConfinedAll children → Node.ConfinedAll loaded) fun _ => True :=
        .of_imp (confined_loadNodes plain confines origin)
      unfold loadNode
      exact .bind inside fun _ loaded => .pure (confined.imp id loaded)
  | .file span use reference loaded children, confined => by
      unfold loadNode
      refine .bind (confined_loadReference plain confines origin span use reference confined.1) ?_
      rintro ⟨found, template⟩ foundConfined
      cases use with
      | inclusion body =>
          exact .bind (confined_loadNodes plain confines origin confined.2) fun _ given =>
            .pure ⟨foundConfined, given⟩
      | raw | inheritance => exact .pure ⟨foundConfined, confined.2⟩

theorem confined_loadNodes (plain : options.extensions = {}) (confines : deeper.Confines)
    (origin : Origin) : ∀ {nodes : List Node}, Node.ConfinedAll nodes →
      Satisfies (loadNodes options deeper origin nodes) Node.ConfinedAll fun _ => True
  | [], _ => by
      unfold loadNodes
      exact .pure trivial
  | _ :: _, confined => by
      unfold loadNodes
      exact .bind (confined_loadNode plain confines origin confined.1) fun _ first =>
        .bind (confined_loadNodes plain confines origin confined.2) fun _ others =>
          .pure ⟨first, others⟩

end

theorem confines_loadLevels (plain : options.extensions = {}) (remaining : Nat) :
    (loadLevels options remaining).Confines := by
  induction remaining with
  | zero => simp [Loading.Deeper.Confines, loadLevels]
  | succ remaining ih =>
      rintro _ ⟨⟩ origin nodes confined
      exact confined_loadNodes plain ih origin confined

/-- Loading keeps a document confined. -/
theorem confinedAll_load (plain : options.extensions = {}) {document : Document}
    (confined : Node.ConfinedAll document.nodes) (origin : Origin) :
    Satisfies (load document origin options) (fun loaded => Node.ConfinedAll loaded.nodes)
      fun _ => True := by
  intro events
  have loaded := confined_loadNodes plain (confines_loadLevels plain options.maxDepth) origin
    confined { events := events }
  dsimp only [load]
  revert loaded
  cases loadNodes options (loadLevels options options.maxDepth) origin document.nodes
      { events := events } <;> exact id

end

end Offside
