import Offside.Inclusion.Load
import Offside.Proofs.Contract.Composition
import Offside.Proofs.Contract.Stage

/-!
# References in a loaded document

The grammar writes down the paths of other files and knows nothing else of these files. So every
reference in a document that was just read is still open, at any depth and whatever the tokens were.
Loading reads the file of each open reference. Where that file is a template its document was just
read, too, and is loaded in turn; so after loading no reference is open at any depth.
-/

namespace Offside

open Computing

/-! ### Documents that were just read -/

namespace Node

/-- References are open inside the declarations of mixins as well as outside. -/
instance : ComposedIn fun _ => Unread where
  composed _ := {
    leaf := fun _ _ => trivial
    branch := fun _ => unreadAll_iff_every.mpr
    file := fun unknown unread =>
      ⟨congrArg Reference.contents unknown, rfl, unreadAll_iff_every.mpr unread⟩
    dissolve := unreadAll_iff_every.mp }
  mixinBlock := trivial
  declaration := unreadAll_iff_every.mpr

end Node

/-- All references in a document are open when it has just been read from its source. -/
theorem satisfies_unread (file : Option String) (source : String) :
    Satisfies (Document.ofSource {} file source) (fun document => Node.UnreadAll document.nodes)
      fun failure => (∃ fault, failure = .token fault) ∨ ∃ fault, failure = .parse fault :=
  (satisfies_ofSource (fun _ => Node.Unread) file source).mono
    (fun _ => Node.unreadAll_iff_every.mpr) fun _ => id

/-! ### Loading -/

/-- Loading blames no earlier stage, and its result has a property. -/
def Loading.Yields {α : Type} (action : Loading α) (holds : α → Prop) : Prop :=
  Satisfies action holds fun failure => ¬failure.BlamesStage

/-- Deeper levels, if there are any, fill all references of documents that were just read. -/
def Loading.Deeper.Fills (deeper : Loading.Deeper) : Prop :=
  ∀ loads ∈ deeper, ∀ origin nodes, Node.UnreadAll nodes →
    Loading.Yields (loads origin nodes) Node.FilledAll

namespace Loading

variable {α : Type} {holds : α → Prop}

theorem yields_fail {origin : Origin} {span : Span} {cause : LoadFault} :
    Yields (fail origin span cause) holds :=
  Satisfies.throw (by simp [Failure.BlamesStage])

section

variable {allowed : Failure → Prop}

theorem satisfies_require {origin : Origin} {span : Span} {found : Except LoadFault α}
    (blames : ∀ cause, found = .error cause → allowed (.load ⟨cause, span, origin.source⟩)) :
    Satisfies (require origin span found) (fun value => found = .ok value) allowed := by
  cases found with
  | error cause => exact .throw (blames cause rfl)
  | ok value => exact .pure rfl

theorem satisfies_noting {action : EStateM Failure (Array Event) α}
    (satisfies : Satisfies action holds allowed) : Satisfies (noting action) holds allowed := by
  intro state
  have done := satisfies state.events
  dsimp only [noting]
  revert done
  cases action state.events <;> exact id

end

theorem yields_require (origin : Origin) (span : Span) (found : Except LoadFault α) :
    Yields (require origin span found) fun value => found = .ok value :=
  satisfies_require fun _ _ => id

theorem yields_countFile (path : String) (bytes : Nat) :
    Yields (countFile path bytes) fun _ => True :=
  .modify _

end Loading

section

variable {options : LoadOptions} {deeper : Loading.Deeper}

/-- What the document of a source leaves open is filled one level deeper. -/
theorem yields_loadTemplate (plain : options.extensions = {}) (fills : deeper.Fills)
    (origin : Origin) (span : Span) (path contents : String) :
    Loading.Yields (loadTemplate options deeper origin span path contents)
      fun document => Node.FilledAll document.nodes := by
  cases deeper with
  | none => exact Loading.yields_fail
  | some loads =>
      have reads : Loading.Yields (Loading.noting
          (Document.ofSource options.extensions (some path) contents))
          fun document => Node.UnreadAll document.nodes := by
        rw [plain]
        refine Loading.satisfies_noting ((satisfies_unread _ _).mono (fun _ => id) ?_)
        rintro failure (⟨fault, rfl⟩ | ⟨fault, rfl⟩) <;> exact id
      exact .bind reads fun document unread =>
        .bind (fills loads rfl _ _ unread) fun nodes filled => .pure filled

/-- What is known of a reference and of the nodes of its file when it is filled. -/
def FileUse.Fills (use : FileUse) (found : Reference × List Node) : Prop :=
  found.1.Read ∧ ((∀ filters, use ≠ .raw filters) → found.1.root.isSome ∧ Node.FilledAll found.2)

theorem yields_loadReference (plain : options.extensions = {}) (fills : deeper.Fills)
    (origin : Origin) (span : Span) (use : FileUse) {reference : Reference} (loaded : List Node)
    (unread : reference.contents = none) :
    Loading.Yields (loadReference options deeper origin span use reference loaded) use.Fills := by
  unfold loadReference
  rw [unread]
  apply Satisfies.bind (Loading.yields_require _ _ _)
  intro path _
  apply Satisfies.bind (Loading.yields_require _ _ _)
  intro bytes _
  apply Satisfies.bind (Loading.yields_countFile _ _)
  intro _ _
  have template : Loading.Yields
      (do
        let document ←
          loadTemplate options deeper origin span path (Text.decodeLossy bytes)
        return ({ reference with
          fullPath := some path
          contents := some (Text.decodeLossy bytes)
          bytes := some bytes
          root := some document.span }, document.nodes))
      use.Fills :=
    .bind (yields_loadTemplate plain fills _ _ _ _) fun document filled =>
      .pure ⟨⟨rfl, rfl, rfl⟩, fun _ => ⟨rfl, filled⟩⟩
  cases use with
  | raw filters => exact .pure ⟨⟨rfl, rfl, rfl⟩, fun template => absurd rfl (template filters)⟩
  | inclusion body => exact template
  | inheritance => exact template

mutual

theorem yields_loadNode (plain : options.extensions = {}) (fills : deeper.Fills)
    (origin : Origin) : ∀ {node : Node}, node.Unread →
      Loading.Yields (loadNode options deeper origin node) Node.Filled
  | .leaf .., _ => by
      unfold loadNode
      exact .pure trivial
  | .branch _ _ children, unread => by
      unfold loadNode
      exact .bind (yields_loadNodes plain fills origin unread) fun _ filled => .pure filled
  | .file span use reference loaded children, unread => by
      unfold loadNode
      refine .bind (yields_loadReference plain fills origin span use loaded unread.1) ?_
      rintro ⟨reference, loaded⟩ ⟨read, template⟩
      cases use with
      | raw filters => exact .pure read
      | inheritance =>
          rcases template (by simp) with ⟨root, filled⟩
          exact .pure ⟨read, root, filled⟩
      | inclusion body =>
          rcases template (by simp) with ⟨root, filled⟩
          exact .bind (yields_loadNodes plain fills origin unread.2.2) fun _ given =>
            .pure ⟨read, root, filled, given⟩

theorem yields_loadNodes (plain : options.extensions = {}) (fills : deeper.Fills)
    (origin : Origin) : ∀ {nodes : List Node}, Node.UnreadAll nodes →
      Loading.Yields (loadNodes options deeper origin nodes) Node.FilledAll
  | [], _ => by
      unfold loadNodes
      exact .pure trivial
  | _ :: _, unread => by
      unfold loadNodes
      exact .bind (yields_loadNode plain fills origin unread.1) fun _ filled =>
        .bind (yields_loadNodes plain fills origin unread.2) fun _ others =>
          .pure ⟨filled, others⟩

end

/-- Every number of levels fills the references of documents that were just read. -/
theorem fills_loadLevels (plain : options.extensions = {}) (remaining : Nat) :
    (loadLevels options remaining).Fills := by
  induction remaining with
  | zero => simp [Loading.Deeper.Fills, loadLevels]
  | succ remaining ih =>
      rintro _ ⟨⟩ origin nodes unread
      exact yields_loadNodes plain ih origin unread

/-- A document that was just read has all its references filled, at every depth, when it is
loaded. -/
theorem satisfies_load (plain : options.extensions = {}) {document : Document}
    (unread : Node.UnreadAll document.nodes) (origin : Origin) :
    Satisfies (load document origin options) (fun loaded => Node.FilledAll loaded.nodes)
      fun failure => ¬failure.BlamesStage := by
  intro events
  have filled := yields_loadNodes plain (fills_loadLevels plain options.maxDepth) origin unread
    { events := events }
  dsimp only [load]
  revert filled
  cases loadNodes options (loadLevels options options.maxDepth) origin document.nodes
      { events := events } <;> exact id

end

end Offside
