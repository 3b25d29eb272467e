import Offside.Inclusion.Load
import Offside.Proofs.Provenance.Document
import Offside.Proofs.Renumbering.Grammar

/-!
# Loading and line numbers

Files are found by their paths. A document with other line numbers is loaded with the same files,
and what goes wrong in it is shown with the text that it is said to have.
-/

namespace Offside

open Computing

variable {change : Renumbering}

/-- A failure with another line number and another text. -/
def Failure.renumber (change : Renumbering) : Failure → Failure
  | .token diagnostic => .token (diagnostic.renumber change)
  | .parse diagnostic => .parse (diagnostic.renumber change)
  | .load diagnostic => .load (diagnostic.renumber change)
  | .link diagnostic => .link (diagnostic.renumber change)
  | .filter diagnostic => .filter (diagnostic.renumber change)
  | .render diagnostic => .render (diagnostic.renumber change)

/-- Whether a text could not be cut into tokens. -/
def Failure.isToken : Failure → Bool
  | .token _ => true
  | .parse _ | .load _ | .link _ | .filter _ | .render _ => false

/-- The failure is the same, or, at a later stage than the first one, it comes with the one text and
is the same with the other one. -/
inductive Failure.Renumbered (change : Renumbering) (failure : Failure) : Failure → Prop where
  | same : Renumbered change failure failure
  | shown (later : failure.isToken = false) (source : failure.source = change.source) :
      Renumbered change failure (failure.renumber change)

/-- Nothing is changed if the lines and the text stay the same. -/
theorem Failure.Renumbered.eq {source : Option String} {failure other : Failure}
    (renumbered : failure.Renumbered ⟨id, source, source⟩ other) : other = failure := by
  cases renumbered with
  | same => rfl
  | shown _ shown => cases failure <;> cases shown <;> rfl

namespace Loading

/-- From any states two computations give related values, or fail in the same way. -/
abbrev Renumbers {α : Type} (change : Renumbering) (values : α → α → Prop)
    (action other : Loading α) : Prop :=
  Parallel (fun _ _ => True) values (Failure.Renumbered change) action other

variable {α : Type} {values : α → α → Prop} {origin other : Origin}

theorem renumbers_fail (source : origin.source = change.source)
    (otherSource : other.source = change.otherSource) (span : Span) (cause : LoadFault) :
    Renumbers change values (fail origin span cause)
      (fail other (span.renumber change.line) cause) := by
  have shown : (Failure.load ⟨cause, span, origin.source⟩).Renumbered change _ :=
    .shown rfl source
  unfold fail
  rw [otherSource]
  exact .throw shown

theorem renumbers_require (source : origin.source = change.source)
    (otherSource : other.source = change.otherSource) (span : Span)
    (result : Except LoadFault α) :
    Renumbers change (fun value value' => value' = value) (require origin span result)
      (require other (span.renumber change.line) result) := by
  cases result with
  | ok value => exact .pure rfl
  | error cause => exact renumbers_fail source otherSource span cause

/-- What is counted and noted makes no difference to how the files of a level are loaded. -/
def Deeper.Stable (deeper : Deeper) : Prop :=
  ∀ load ∈ deeper, ∀ origin nodes,
    Parallel (fun _ _ => True) (fun value value' => value' = value)
      (fun fault fault' => fault' = fault) (load origin nodes) (load origin nodes)

/-- How the files of a document, and of the same one with other line numbers, are loaded. -/
structure Beside (change : Renumbering) (options : LoadOptions) (deeper : Deeper)
    (origin other : Origin) : Prop where
  plain : options.extensions = {}
  stable : deeper.Stable
  file : other.file = origin.file
  source : origin.source = change.source
  otherSource : other.source = change.otherSource
  idempotent : ∀ number, change.line (change.line number) = change.line number

end Loading

open Loading

section

variable {options : LoadOptions} {deeper : Deeper} {origin other : Origin}

theorem stable_ofSource (path contents : String) :
    Parallel (fun _ _ => True) (fun value value' => value' = value)
      (fun fault fault' => fault' = fault)
      (noting (Document.ofSource {} (some path) contents))
      (noting (Document.ofSource {} (some path) contents)) := by
  have outcome_noting (state : LoadState) :
      outcome (noting (Document.ofSource {} (some path) contents) state) =
        outcome (Document.ofSource {} (some path) contents state.events) := by
    unfold noting
    cases Document.ofSource {} (some path) contents state.events <;> rfl
  refine .of_outcome fun state state' => ?_
  rw [outcome_noting, outcome_noting, outcome_ofSource, outcome_ofSource _ _ state'.events]

theorem renumbers_loadTemplate (beside : Beside change options deeper origin other) (span : Span)
    (path contents : String) :
    Loading.Renumbers change (fun value value' => value' = value)
      (loadTemplate options deeper origin span path contents)
      (loadTemplate options deeper other (span.renumber change.line) path contents) := by
  have stable := beside.stable
  unfold loadTemplate
  cases deeper with
  | none => exact renumbers_fail beside.source beside.otherSource span _
  | some load =>
      have loaded := stable load rfl
      rw [beside.plain]
      have eq_renumbers (failure other : Failure) (same : other = failure) :
          failure.Renumbered change other :=
        same ▸ .same
      refine .bind_same
        ((stable_ofSource path contents).mono (fun _ _ => id) eq_renumbers) fun document => ?_
      refine .bind_same
        ((loaded _ document.nodes).mono (fun _ _ => id) eq_renumbers) fun nodes => ?_
      exact .pure rfl

theorem renumbers_loadReference (beside : Beside change options deeper origin other) (span : Span)
    (use : FileUse) (reference : Reference) (loaded : List Node) :
    Loading.Renumbers change
      (fun found found' => found'.1.renumber change.line = found.1.renumber change.line ∧
        Node.renumberAll change.line found'.2 = Node.renumberAll change.line found.2)
      (loadReference options deeper origin span use reference loaded)
      (loadReference options deeper other (span.renumber change.line) (use.renumber change.line)
        (reference.renumber change.line) (Node.renumberAll change.line loaded)) := by
  have sameContents : (reference.renumber change.line).contents = reference.contents := rfl
  have samePath : (reference.renumber change.line).path = reference.path := rfl
  have again : Node.renumberAll change.line (Node.renumberAll change.line loaded) =
      Node.renumberAll change.line loaded := by
    simp [beside.idempotent]
  unfold loadReference
  rw [sameContents, samePath, beside.file]
  cases reference.contents with
  | some contents => exact .pure ⟨by simp [beside.idempotent], again⟩
  | none =>
      have requires {α : Type} (result : Except LoadFault α) :=
        renumbers_require beside.source beside.otherSource span result
      refine .bind_same (requires _) fun path => ?_
      refine .bind_same (requires _) fun bytes => ?_
      have counts : Loading.Renumbers change (fun _ _ => True) (countFile path bytes.length)
          (countFile path bytes.length) :=
        .modify (fun _ _ _ => trivial) trivial
      refine .bind counts fun _ _ _ => ?_
      dsimp only
      cases use with
      | raw filters =>
          refine .pure ⟨?_, again⟩
          simp [Reference.renumber, Function.comp_def, beside.idempotent]
      | inclusion | inheritance =>
          refine .bind_same (renumbers_loadTemplate beside span _ _)
            fun document => .pure ⟨?_, rfl⟩
          simp [Reference.renumber, beside.idempotent]

mutual

theorem renumbers_loadNode (beside : Beside change options deeper origin other) :
    ∀ node : Node, Loading.Renumbers change
      (fun found found' => found'.renumber change.line = found.renumber change.line)
      (loadNode options deeper origin node)
      (loadNode options deeper other (node.renumber change.line))
  | .leaf .. => by
      simp only [Node.renumber_leaf, loadNode]
      exact .pure (by simp [beside.idempotent])
  | .branch _ _ children => by
      simp only [Node.renumber_branch, loadNode]
      exact .bind (renumbers_loadNodes beside children) fun found found' same =>
        .pure (by simp [beside.idempotent, same])
  | .file span use reference loaded children => by
      simp only [Node.renumber_file, loadNode]
      refine .bind (renumbers_loadReference beside span use reference loaded) ?_
      rintro ⟨found, inside⟩ ⟨found', inside'⟩ ⟨same, sameInside⟩
      cases use with
      | inclusion body =>
          exact .bind (renumbers_loadNodes beside children) fun given given' sameGiven =>
            .pure (by simp [beside.idempotent, same, sameInside, sameGiven])
      | raw | inheritance => exact .pure (by simp [beside.idempotent, same, sameInside])

theorem renumbers_loadNodes (beside : Beside change options deeper origin other) :
    ∀ nodes : List Node, Loading.Renumbers change
      (fun found found' => Node.renumberAll change.line found' =
        Node.renumberAll change.line found)
      (loadNodes options deeper origin nodes)
      (loadNodes options deeper other (Node.renumberAll change.line nodes))
  | [] => by
      simp only [Node.renumberAll_nil, loadNodes]
      exact .pure rfl
  | node :: rest => by
      simp only [Node.renumberAll_cons, loadNodes]
      exact .bind (renumbers_loadNode beside node) fun found found' same =>
        .bind (renumbers_loadNodes beside rest) fun others others' sameOthers =>
          .pure (by simp [same, sameOthers])

end

end

theorem stable_loadLevels {options : LoadOptions} (plain : options.extensions = {})
    (remaining : Nat) : Deeper.Stable (loadLevels options remaining) := by
  induction remaining with
  | zero => exact fun _ found => by cases found
  | succ remaining ih =>
      rintro _ ⟨⟩ origin nodes
      have beside : Beside ⟨id, origin.source, origin.source⟩ options
          (loadLevels options remaining) origin origin :=
        ⟨plain, ih, rfl, rfl, rfl, fun _ => rfl⟩
      have loads := renumbers_loadNodes beside nodes
      simp only [Node.renumberAll_id] at loads
      exact loads.mono (fun _ _ => id) fun _ _ => Failure.Renumbered.eq

/-- A document with other line numbers is loaded with the same files. -/
theorem renumbers_load (change : Renumbering) {options : LoadOptions}
    (plain : options.extensions = {})
    (idempotent : ∀ number, change.line (change.line number) = change.line number)
    (document : Document) (file : Option String) :
    Parallel (fun _ _ => True)
      (fun loaded loaded' => loaded'.renumber change.line = loaded.renumber change.line)
      (Failure.Renumbered change) (load document ⟨file, change.source⟩ options)
      (load (document.renumber change.line) ⟨file, change.otherSource⟩ options) := by
  intro events events' _
  have beside : Beside change options (loadLevels options options.maxDepth)
      ⟨file, change.source⟩ ⟨file, change.otherSource⟩ :=
    ⟨plain, stable_loadLevels plain options.maxDepth, rfl, rfl, rfl, idempotent⟩
  have start : True := trivial
  have done := @renumbers_loadNodes change options _ _ _ beside document.nodes
    { events := events } { events := events' } start
  simp only [load, Document.renumber]
  revert done
  cases loadNodes options (loadLevels options options.maxDepth) ⟨file, change.source⟩
      document.nodes { events := events } <;>
    cases loadNodes options (loadLevels options options.maxDepth) ⟨file, change.otherSource⟩
      (Node.renumberAll change.line document.nodes) { events := events' }
  · rintro ⟨same, _⟩
    refine ⟨?_, trivial⟩
    simp [idempotent, same]
  · exact id
  · exact id
  · exact id

end Offside
