import Offside.Filter.Apply
import Offside.Proofs.Computation
import Offside.Proofs.Contract.Stage

/-!
# What filtering leaves in a document

Each filter, and each file that goes through filters, becomes a text. In a linked document that is
all there was besides plain branches, so what is left can be written as a page.
-/

namespace Offside

open Computing

/-- Filtering turns a property of nodes into another one, and only such faults come up as are
allowed. -/
structure Node.Filters (before after : Node → Prop) (allowed : Diagnostic FilterFault → Prop) :
    Prop where
  leaf : ∀ {span content}, before (.leaf span content) → after (.leaf span content)
  branch : ∀ {span label children filtered}, before (.branch span label children) →
    (∀ name attributes body, label ≠ .filter name attributes body) → Node.Every after filtered →
      after (.branch span label filtered)
  inclusion : ∀ {span body reference loaded children filtered},
    before (.file span (.inclusion body) reference loaded children) → Node.Every after filtered →
      after (.file span (.inclusion body) reference loaded filtered)
  inheritance : ∀ {span reference loaded children},
    before (.file span .inheritance reference loaded children) →
      after (.file span .inheritance reference loaded children)
  unfiltered : ∀ {span reference loaded children},
    before (.file span (.raw []) reference loaded children) →
      after (.file span (.raw []) reference loaded children)
  /-- The text that a filter gives takes the place of its node. -/
  text : ∀ {node value}, before node → after (.leaf node.span (.text value false))
  blames : ∀ {node cause}, before node → (∀ path, cause ≠ .unloadedFile path) →
    allowed ⟨cause, node.span, none⟩
  blamesEntry : ∀ {span filters reference loaded children entry cause},
    before (.file span (.raw filters) reference loaded children) → entry ∈ filters →
      (∀ path, cause ≠ .unloadedFile path) → allowed ⟨cause, entry.span, none⟩
  unread : ∀ {span filters reference loaded children},
    before (.file span (.raw filters) reference loaded children) → filters ≠ [] →
      ¬reference.Read → allowed ⟨.unloadedFile reference.path, span, none⟩

namespace Filtering

variable (allowed : Diagnostic FilterFault → Prop)

/-- Only such faults come up as are allowed. -/
def Keeps {α : Type} (action : Filtering α) : Prop :=
  Satisfies action (fun _ => True) allowed

/-- All faults are allowed at a place, other than that a file was never read. -/
def Blames (span : Span) : Prop :=
  ∀ {cause}, (∀ path, cause ≠ .unloadedFile path) → allowed ⟨cause, span, none⟩

end Filtering

namespace FilterSet

variable (set : FilterSet) {allowed : Diagnostic FilterFault → Prop}

theorem find_ne_unloadedFile (name path : String) :
    set.find name ≠ .error (.unloadedFile path) := by
  have resolves : set.resolve name ≠ .error (.unloadedFile path) := by
    unfold resolve
    split
    · simp
    · split <;> simp
  unfold find
  split
  · rename_i fault failed
    simpa [failed] using resolves
  · split <;> simp

section

variable {span : Span} (blames : Filtering.Blames allowed span)

include blames

theorem keeps_require_find (name : String) :
    Filtering.Keeps allowed (Filtering.require span (set.find name)) := by
  cases found : set.find name with
  | error cause =>
      refine .throw (blames fun path unloaded => set.find_ne_unloadedFile name path ?_)
      rw [found, unloaded]
  | ok value => exact .pure trivial

theorem keeps_accept (name : String) (result : Except String String) :
    Filtering.Keeps allowed (Filtering.accept span name result) := by
  cases result with
  | error message => exact .throw (blames (by simp))
  | ok text => exact .pure trivial

theorem keeps_applyToText (name : String) (attributes : List Attribute) (text : String)
    (file : Option String) :
    Filtering.Keeps allowed (set.applyToText name attributes text file span) :=
  .bind (set.keeps_require_find blames name) fun _ _ =>
    .bind (.modify _) fun _ _ => keeps_accept blames name _

end

theorem keeps_applyInTurn (file : Option String) {filters : List IncludeFilter}
    (blames : ∀ entry ∈ filters, Filtering.Blames allowed entry.span) (text : String) :
    Filtering.Keeps allowed (set.applyInTurn file filters text) := by
  induction filters generalizing text with
  | nil => exact .pure trivial
  | cons entry rest ih =>
      rcases List.forall_mem_cons.mp blames with ⟨first, others⟩
      exact .bind (set.keeps_applyToText first _ _ _ _) fun text _ => ih others text

/-- A file that was read goes through any filter, as text or as bytes. -/
theorem keeps_applyToFile {entry : IncludeFilter} {reference : Reference} {span : Span}
    (blames : Filtering.Blames allowed entry.span)
    (unread : ¬reference.Read → allowed ⟨.unloadedFile reference.path, span, none⟩) :
    Filtering.Keeps allowed (set.applyToFile entry reference span) := by
  apply Satisfies.bind (set.keeps_require_find blames entry.name)
  intro found _
  dsimp only
  split
  · split
    · next unknown => exact .throw (unread fun read => by simpa [unknown] using read.bytes)
    · exact keeps_accept blames _ _
  · split
    · next unknown => exact .throw (unread fun read => by simpa [unknown] using read.contents)
    · exact keeps_accept blames _ _

variable {before after : Node → Prop}

mutual

theorem satisfies_applyToNode [Node.Hereditary before]
    (filters : Node.Filters before after allowed) : ∀ {node : Node}, before node →
      Satisfies (set.applyToNode node) after allowed
  | .leaf .., found => by
      unfold applyToNode
      exact .pure (filters.leaf found)
  | .branch span label children, found => by
      have inside : Node.Every before children := Node.Hereditary.children found
      unfold applyToNode
      apply Satisfies.bind (satisfies_applyToNodes filters inside)
      intro children finished
      split
      · exact .bind (.modify _) fun _ _ =>
          .bind (set.keeps_applyToText (filters.blames found) _ _ _ _) fun _ _ =>
            .pure (filters.text found)
      · rename_i notFilter
        exact .pure (filters.branch found notFilter finished)
  | .file span use reference loaded children, found => by
      unfold applyToNode
      cases use with
      | inclusion body =>
          have inside : Node.Every before children := Node.Hereditary.children found
          exact .bind (satisfies_applyToNodes filters inside) fun _ finished =>
            .pure (filters.inclusion found finished)
      | inheritance => exact .pure (filters.inheritance found)
      | raw entries =>
          dsimp only
          split
          · rename_i none
            obtain rfl := List.reverse_eq_nil_iff.mp none
            exact .pure (filters.unfiltered found)
          · rename_i innermost outer order
            have some : entries ≠ [] := by
              rintro rfl
              cases order
            have among : ∀ entry ∈ innermost :: outer, Filtering.Blames allowed entry.span := by
              intro entry member _ other
              refine filters.blamesEntry found ?_ other
              rwa [← List.mem_reverse, order]
            rcases List.forall_mem_cons.mp among with ⟨first, others⟩
            exact .bind (.modify _) fun _ _ =>
              .bind (set.keeps_applyToFile first (filters.unread found some)) fun _ _ =>
              .bind (set.keeps_applyInTurn _ others _) fun _ _ => .pure (filters.text found)

theorem satisfies_applyToNodes [Node.Hereditary before]
    (filters : Node.Filters before after allowed) : ∀ {nodes : List Node},
      Node.Every before nodes → Satisfies (set.applyToNodes nodes) (Node.Every after) allowed
  | [], _ => by
      unfold applyToNodes
      exact .pure Node.every_nil
  | _ :: _, found => by
      rw [Node.every_cons] at found
      unfold applyToNodes
      exact .bind (satisfies_applyToNode filters found.1) fun _ first =>
        .bind (satisfies_applyToNodes filters found.2) fun _ others =>
          .pure (Node.every_cons.mpr ⟨first, others⟩)

end

end FilterSet

/-- Filtering turns a property of the nodes of a document into another one. -/
theorem Node.Filters.satisfies_apply {before after : Node → Prop}
    {allowed : Diagnostic FilterFault → Prop} [Node.Hereditary before]
    (filters : Node.Filters before after allowed) (set : FilterSet) {document : Document}
    (found : Node.Every before document.nodes) :
    Satisfies (set.apply document) (fun filtered => Node.Every after filtered.nodes) allowed := by
  intro events
  have done := set.satisfies_applyToNodes filters found { events := events }
  dsimp only [FilterSet.apply]
  revert done
  cases set.applyToNodes document.nodes { events := events } <;> exact id

/-- In a linked document every file that goes through filters was read, and its filters, as all
others, become texts. -/
theorem Node.filters_linked :
    Node.Filters (Node.Has .linked) (Node.Has .finished)
      fun fault => ∀ path, fault.cause ≠ .unloadedFile path where
  leaf _ := trivial
  branch has notFilter finished := ⟨⟨has.1, notFilter⟩, Node.haveAll_iff_every.mpr finished⟩
  inclusion has := has.elim
  inheritance has := has.elim
  unfiltered has := absurd rfl has.1
  text _ := trivial
  blames _ other := other
  blamesEntry _ _ other := other
  unread has _ unread := absurd has.2 unread

/-- The filters of a linked document are applied without blame, and none of them is left. -/
theorem FilterSet.satisfies_apply (set : FilterSet) {document : Document}
    (linked : Node.HaveAll .linked document.nodes) :
    Satisfies (set.apply document) (fun filtered => Node.HaveAll .finished filtered.nodes)
      fun fault => ∀ path, fault.cause ≠ .unloadedFile path := by
  simpa only [Node.haveAll_iff_every] using
    Node.filters_linked.satisfies_apply set (Node.haveAll_iff_every.mp linked)

end Offside
