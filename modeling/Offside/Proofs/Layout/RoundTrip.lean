import Offside.Page
import Offside.Proofs.Contract.Finished
import Offside.Proofs.Contract.Rendering
import Offside.Proofs.Layout.Nodes
import Offside.Proofs.Layout.Tokens

/-!
# From a layout to a page

A source in which a forest is laid out becomes a page that holds the forest: printing elements and
rendering the print gives the elements back, however they were laid out.
-/

namespace Offside

open Computing Html Rendering

section

variable {forest : List Element} {nodes : List Node}

theorem haveAll_lineNodes (span : Span) (text : Option ElementText) :
    Node.HaveAll .finished (lineNodes span text) := by
  cases text <;> simp [lineNodes]

theorem Stands.finished (stands : Stands forest nodes) : Node.HaveAll .finished nodes := by
  induction stands with
  | nil => trivial
  | cons standsInside following insideFinished followingFinished =>
      refine ⟨⟨⟨by simp, by simp⟩, ?_⟩, followingFinished⟩
      exact Node.haveAll_append.mpr ⟨haveAll_lineNodes _ _, insideFinished⟩

variable {limit : Nat} {deeper : Deeper} {block : Rendering Unit}

theorem write_empty (machine : Machine) : machine.write "" = machine := by
  simp [Machine.write]

theorem write_write (machine : Machine) (first second : String) :
    (machine.write first).write second = machine.write (first ++ second) := by
  simp [Machine.write, String.append_assoc]

theorem visitAll_lineNodes_eq (span : Span) (text : Option ElementText) (machine : Machine) :
    visitAll limit deeper block (lineNodes span text) machine =
      .ok () (machine.write (Element.textValue text)) := by
  cases text with
  | none =>
      rw [Element.textValue, Option.map_none, Option.getD_none, write_empty]
      rfl
  | some content => rfl

/-- An element with a name that may have content is written with its content between two tags. -/
theorem element_eq {name : ElementName} {span : Span} {children : List Node}
    {content : Rendering Unit} {inside : String} {machine : Machine}
    (writes : content (machine.write ("<" ++ name.value ++ ">")) =
      .ok () ((machine.write ("<" ++ name.value ++ ">")).write inside)) :
    element name.value span false [] children content machine =
      .ok () (machine.write ("<" ++ name.value ++ ">" ++ inside ++ "</" ++ name.value ++ ">")) := by
  have mayHaveContent : voidElements.contains name.value = false := by
    simpa using name.notVoid
  have opens : startTag name.value [] = "<" ++ name.value ++ ">" := by
    simp [startTag, attributesText, attributesWith]
  have closes : endTag name.value = "</" ++ name.value ++ ">" := rfl
  have started : write ("<" ++ name.value ++ ">") machine =
      .ok () (machine.write ("<" ++ name.value ++ ">")) :=
    rfl
  unfold element
  simp only [mayHaveContent, Bool.or_self, Bool.false_eq_true, if_false, opens, closes]
  refine (bind_of_ok started).trans ((bind_of_ok writes).trans ?_)
  change EStateM.Result.ok () _ = _
  simp only [write_write, String.append_assoc]

/-- The nodes of a forest are written as the forest. -/
theorem visitAll_eq_of_stands (stands : Stands forest nodes) (machine : Machine) :
    visitAll limit deeper block nodes machine =
      .ok () (machine.write (Element.htmlAll forest)) := by
  induction stands generalizing machine with
  | nil =>
      rw [Element.htmlAll, write_empty]
      rfl
  | @cons name text children rest span textSpan inside others _ _ writesInside writesFollowing =>
      have content (machine : Machine) :
          visitAll limit deeper block (lineNodes textSpan text ++ inside) machine =
            .ok () (machine.write (Element.textValue text ++ Element.htmlAll children)) := by
        rw [visitAll_append]
        refine (bind_of_ok (visitAll_lineNodes_eq textSpan text machine)).trans ?_
        rw [writesInside, write_write]
      unfold visitAll
      refine (bind_of_ok (element_eq (content _))).trans ?_
      rw [writesFollowing, write_write]
      simp only [Element.htmlAll, Element.html, String.append_assoc]

theorem exists_render_eq_of_visitAll_eq {document : Document} {options : RenderOptions}
    {events : Array Event} {page : String}
    (visited : visitAll options.maxMixinDepth (levels options.maxMixinDepth options.maxMixinDepth)
      (return) document.nodes (Machine.start options.globals doctype events) =
        .ok () ((Machine.start options.globals doctype events).write page)) :
    ∃ eventsAfter, render document options events = .ok (doctype ++ page) eventsAfter :=
  ⟨_, by simp only [render, visited]; rfl⟩

theorem exists_render_eq {document : Document} (stands : Stands forest document.nodes)
    (options : RenderOptions) (events : Array Event) :
    ∃ eventsAfter, render document options events =
      .ok (doctype ++ Element.htmlAll forest) eventsAfter :=
  exists_render_eq_of_visitAll_eq (visitAll_eq_of_stands stands _)

end

section

variable {unit : IndentUnit} {forest : List Element} {lines : List (List Char)} {source : String}
  (options : PageOptions) (read : Reader) (file : Option String) (events : Array Event)

/-- A source in which entries are laid out stands for a document with these entries. -/
theorem exists_ofSource_eq_of_entries {entries : List Entry}
    (layout : Entry.Layout unit 0 entries lines) (written : WrittenIn source lines) :
    ∃ document eventsAfter,
      Document.ofSource {} file source events = .ok document eventsAfter ∧
        Entry.Parsed entries document.nodes := by
  rcases exists_tokenize_eq layout written file events with
    ⟨tokens, eventsBetween, kinds, cut, spelled, spells⟩
  rcases exists_parse_eq spells spelled file (some source) eventsBetween with
    ⟨document, eventsAfter, read, parsed⟩
  refine ⟨document, eventsAfter, ?_, parsed⟩
  exact (bind_of_ok (adaptExcept_of_ok cut)).trans (adaptExcept_of_ok read)

/-- A source in which a forest is laid out stands for a document with the elements of the forest. -/
theorem exists_ofSource_eq (layout : Layout unit 0 forest lines)
    (written : WrittenIn source lines) :
    ∃ document eventsAfter,
      Document.ofSource {} file source events = .ok document eventsAfter ∧
        Stands forest document.nodes := by
  rcases exists_ofSource_eq_of_entries file events layout.entries written with
    ⟨document, eventsAfter, read, parsed⟩
  exact ⟨document, eventsAfter, read, stands_of_parsed parsed⟩

/-- A document that needs no filters is rendered as it was linked. -/
theorem outcome_renderText_of_compiled {document : Document} {sources : Sources}
    {linked : Array Event} {page : String}
    (compiled : compileWithSources options read file source events =
      .ok (document, sources) linked)
    (finished : Node.HaveAll .finished document.nodes)
    (renders : ∀ events, ∃ eventsAfter,
      render document options.rendering events = .ok page eventsAfter) :
    outcome (renderText options read file source events) = .ok page := by
  rcases exists_apply_eq finished linked with ⟨filtered, applied⟩
  rcases renders filtered with ⟨last, rendered⟩
  have all : renderText options read file source events = .ok page last :=
    (bind_of_ok compiled).trans
      ((bind_of_ok (adaptExcept_of_ok applied)).trans (adaptExcept_of_ok rendered))
  rw [all]
  rfl

/-- A document that needs no other files, no linking and no filters is rendered as it is. -/
theorem outcome_renderText_of_finished {document : Document} {parsed : Array Event} {page : String}
    (ofSource : Document.ofSource {} file source events = .ok document parsed)
    (finished : Node.HaveAll .finished document.nodes)
    (renders : ∀ events, ∃ eventsAfter,
      render document options.rendering events = .ok page eventsAfter) :
    outcome (renderText options read file source events) = .ok page := by
  rcases exists_load_eq finished parsed with ⟨second, loaded⟩
  have normal : Node.HaveAll .normal document.nodes :=
    Node.HaveAll.mono (fun _ => Shape.blockless_finished _) (fun _ _ => False.elim) finished
  have compiled : compileWithSources options read file source events =
      .ok (document, Sources.ofDocument file source document) _ :=
    (bind_of_ok ofSource).trans ((bind_of_ok loaded).trans
      ((bind_of_ok (adaptExcept_of_ok (link_eq normal second))).trans rfl))
  exact outcome_renderText_of_compiled options read file events compiled finished renders

/-- Printing a forest and rendering the print gives the forest back: however the elements are laid
out in the source, the page holds each of them with its text and with the elements inside it. -/
theorem outcome_renderText_eq (layout : Layout unit 0 forest lines)
    (written : WrittenIn source lines) :
    outcome (renderText options read file source events) =
      .ok (doctype ++ Element.htmlAll forest) := by
  rcases exists_ofSource_eq file events layout written with ⟨document, parsed, ofSource, stands⟩
  exact outcome_renderText_of_finished options read file events ofSource stands.finished
    (exists_render_eq stands options.rendering)

end

theorem outcome_renderText_list :
    outcome (renderText {} (fun _ => .error "") none "ul\n  li one\n \n  li\n     em two" #[]) =
      .ok "<!DOCTYPE html><ul><li>one</li><li><em>two</em></li></ul>" := by
  let ul : ElementName :=
    ⟨"ul", ⟨'u', ['l'], by decide, by decide, List.all_eq_true.mp (by decide)⟩, by decide,
      by decide⟩
  let li : ElementName :=
    ⟨"li", ⟨'l', ['i'], by decide, by decide, List.all_eq_true.mp (by decide)⟩, by decide,
      by decide⟩
  let em : ElementName :=
    ⟨"em", ⟨'e', ['m'], by decide, by decide, List.all_eq_true.mp (by decide)⟩, by decide,
      by decide⟩
  let one : ElementText := ⟨"one", by decide, by decide, by decide, by decide⟩
  let two : ElementText := ⟨"two", by decide, by decide, by decide, by decide⟩
  have blank : ∀ line ∈ [[' ']], IsBlankLine line := by simp [IsBlankLine, Text.isIndentation]
  have noBlank : ∀ line ∈ [], IsBlankLine line := by simp
  have second : Layout .space 2 [.mk li none [.mk em (some two) []]] _ :=
    .cons (by decide : 0 < 3) noBlank (.cons (by decide : 0 < 1) noBlank .nil .nil) .nil
  have both : Layout .space 2 [.mk li (some one) [], .mk li none [.mk em (some two) []]] _ :=
    .cons (by decide : 0 < 1) blank .nil second
  have layout : Layout .space 0
      [.mk ul none [.mk li (some one) [], .mk li none [.mk em (some two) []]]] _ :=
    .cons (by decide : 0 < 2) noBlank both .nil
  refine (outcome_renderText_eq {} _ none #[] layout (.inr ⟨?_, ?_⟩)).trans ?_
  · simp [ul, li, em, one, two, Element.line, IndentUnit.character]
  · simp [em, two, Element.line, IndentUnit.character, IsBlankLine, Text.isIndentation]
  · simp [ul, li, em, one, two, doctype, Element.htmlAll, Element.html, Element.textValue]

end Offside
