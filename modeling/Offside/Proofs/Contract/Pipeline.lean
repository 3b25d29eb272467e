import Offside.Page
import Offside.Proofs.Contract.Filtering
import Offside.Proofs.Contract.Linking
import Offside.Proofs.Contract.Loading
import Offside.Proofs.Contract.Rendering

/-!
# The stages fit together

What a stage leaves in a document is what the next one asks for. So in the course from the text of
a template to its page no stage ever blames an earlier one.
-/

namespace Offside

open Computing

@[simp]
theorem Failure.blamesStage_attach {source : String} {failure : Failure} :
    (failure.attach source).BlamesStage ↔ failure.BlamesStage := by
  cases failure <;> exact Iff.rfl

@[simp]
theorem Sources.blamesStage_attach {sources : Sources} {failure : Failure} :
    (sources.attach failure).BlamesStage ↔ failure.BlamesStage := by
  unfold attach
  split
  · exact Failure.blamesStage_attach
  · exact Iff.rfl

section

variable (options : PageOptions) (read : Reader) (file : Option String) (source : String)

/-- The document of a template with all files it refers to. -/
def loadedDocument : Compiling Document := do
  let document ← Document.ofSource {} file source
  load document ⟨file, some source⟩ (options.loading read)

/-- The document of a template, linked and with its filters applied. -/
def finishedDocument : Compiling Document := do
  let (document, sources) ← compileWithSources options read file source
  (options.filters.apply document).adaptExcept fun fault => sources.attach (.filter fault)

theorem satisfies_loadedDocument :
    Satisfies (loadedDocument options read file source) (fun loaded => Node.FilledAll loaded.nodes)
      fun failure => ¬failure.BlamesStage := by
  refine .bind (satisfies_unread file source |>.mono (fun _ => id) ?_) fun document unread =>
    satisfies_load rfl unread _
  rintro failure (⟨fault, rfl⟩ | ⟨fault, rfl⟩) <;> exact id

/-- Linking the loaded document is the rest of the way to the linked one. -/
theorem compileWithSources_eq :
    compileWithSources options read file source = (do
      let loaded ← loadedDocument options read file source
      let sources := Sources.ofDocument file source loaded
      let linked ← (link loaded).adaptExcept fun fault => sources.attach (.link fault)
      return (linked, sources)) := by
  simp only [compileWithSources, loadedDocument, bind_assoc]

theorem satisfies_compileWithSources :
    Satisfies (compileWithSources options read file source)
      (fun linked => Node.HaveAll .linked linked.1.nodes) fun failure => ¬failure.BlamesStage := by
  rw [compileWithSources_eq]
  apply Satisfies.bind (satisfies_loadedDocument options read file source)
  intro loaded filled
  refine .bind (.adaptExcept (satisfies_link filled) fun fault safe => ?_) fun linked has =>
    .pure has
  rw [Sources.blamesStage_attach]
  exact not_exists.mpr safe

theorem satisfies_compile :
    Satisfies (compile options read file source)
      (fun linked => Node.HaveAll .linked linked.nodes) fun failure => ¬failure.BlamesStage :=
  .bind (satisfies_compileWithSources options read file source) fun _ has => .pure has

theorem satisfies_filtered (linked : Document × Sources)
    (has : Node.HaveAll .linked linked.1.nodes) :
    Satisfies ((options.filters.apply linked.1).adaptExcept fun fault =>
        linked.2.attach (.filter fault))
      (fun finished => Node.HaveAll .finished finished.nodes)
      fun failure => ¬failure.BlamesStage :=
  .adaptExcept (options.filters.satisfies_apply has) fun fault safe => by
    rw [Sources.blamesStage_attach]
    exact not_exists.mpr safe

theorem satisfies_finishedDocument :
    Satisfies (finishedDocument options read file source)
      (fun finished => Node.HaveAll .finished finished.nodes)
      fun failure => ¬failure.BlamesStage :=
  .bind (satisfies_compileWithSources options read file source) (satisfies_filtered options)

theorem satisfies_renderText :
    Satisfies (renderText options read file source) (fun _ => True)
      fun failure => ¬failure.BlamesStage := by
  apply Satisfies.bind (satisfies_compileWithSources options read file source)
  intro linked has
  apply Satisfies.bind (satisfies_filtered options linked has)
  intro finished hasNone
  apply Satisfies.adaptExcept (Html.satisfies_render hasNone _)
  intro fault safe
  rw [Sources.blamesStage_attach]
  exact not_exists.mpr safe

theorem satisfies_renderFile (path : String) :
    Satisfies (renderFile options read path) (fun _ => True)
      fun failure => ¬failure.BlamesStage := by
  unfold renderFile
  split
  · exact .throw id
  · exact satisfies_renderText options read _ _

/-- The stages fit together: loading fills every reference, linking leaves no template and no named
block, filtering leaves no filter and no file, and on the way to a page no stage is given what an
earlier one should have dealt with. -/
theorem stages_fit_together :
    Satisfies (loadedDocument options read file source) (fun loaded => Node.FilledAll loaded.nodes)
        (fun failure => ¬failure.BlamesStage) ∧
      Satisfies (compile options read file source)
        (fun linked => Node.HaveAll .linked linked.nodes)
        (fun failure => ¬failure.BlamesStage) ∧
      Satisfies (finishedDocument options read file source)
        (fun finished => Node.HaveAll .finished finished.nodes)
        (fun failure => ¬failure.BlamesStage) ∧
      Satisfies (renderText options read file source) (fun _ => True)
        (fun failure => ¬failure.BlamesStage) ∧
      ∀ path, Satisfies (renderFile options read path) (fun _ => True)
        fun failure => ¬failure.BlamesStage :=
  ⟨satisfies_loadedDocument options read file source, satisfies_compile options read file source,
    satisfies_finishedDocument options read file source,
    satisfies_renderText options read file source, satisfies_renderFile options read⟩

end

end Offside
