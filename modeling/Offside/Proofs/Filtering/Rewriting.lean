import Mathlib.Data.List.Forall2
import Offside.Proofs.Contract.Filtering

/-!
# Filters are rewritten and nothing else

A filter, or a file that goes through filters, becomes one text in its place. What is inside of it
is gone with it, and around it all stays as it is. So behind the stage there is nothing left for it
to do. The nodes of another file are not in the document, and are left to themselves.
-/

namespace Offside

open Computing

namespace Node

/-- Filtering has something to do at a node itself: it is a filter, or a file that goes through
filters. -/
def NeedsFiltering : Node → Prop
  | leaf .. => False
  | branch _ label _ => ∃ name attributes body, label = .filter name attributes body
  | file _ use _ _ _ => ∃ filters, use = .raw filters ∧ filters ≠ []

/-- The second node is the first one with a text in the place of each outermost node that needed
filtering. -/
inductive Rewritten : Node → Node → Prop where
  | text {node : Node} (needs : node.NeedsFiltering) (value : String) :
      Rewritten node (.leaf node.span (.text value false))
  /-- A node without a body that needed no filtering. -/
  | bare {node : Node} (bodiless : node.children? = none) (plain : ¬node.NeedsFiltering) :
      Rewritten node node
  | branch {span : Span} {label : Label} {children rewritten : List Node}
      (plain : ¬(Node.branch span label children).NeedsFiltering)
      (inside : List.Forall₂ Rewritten children rewritten) :
      Rewritten (.branch span label children) (.branch span label rewritten)
  | inclusion {span body : Span} {reference : Reference} {loaded children rewritten : List Node}
      (inside : List.Forall₂ Rewritten children rewritten) :
      Rewritten (.file span (.inclusion body) reference loaded children)
        (.file span (.inclusion body) reference loaded rewritten)

/-- Filtering has nothing to do at a node or in its body, at any depth. -/
def Unfiltered (node : Node) : Prop :=
  Every (fun found => ¬found.NeedsFiltering) node.walk

section

variable {span body : Span} {label : Label} {reference : Reference} {loaded children : List Node}

theorem unfiltered_branch :
    (Node.branch span label children).Unfiltered ↔
      (∀ name attributes body, label ≠ .filter name attributes body) ∧
        Every Unfiltered children := by
  simp only [Unfiltered, walk, every_cons, every_walkAll_iff, NeedsFiltering, not_exists]
  rfl

theorem unfiltered_inclusion :
    (Node.file span (.inclusion body) reference loaded children).Unfiltered ↔
      Every Unfiltered children := by
  have plain : ¬(Node.file span (.inclusion body) reference loaded children).NeedsFiltering := by
    simp [NeedsFiltering]
  simp only [Unfiltered, walk, every_cons, every_walkAll_iff, plain, not_false_eq_true, true_and]
  rfl

theorem unfiltered_raw {filters : List IncludeFilter} :
    (Node.file span (.raw filters) reference loaded children).Unfiltered ↔ filters = [] := by
  simp [Unfiltered, walk, NeedsFiltering]

end

/-- Whatever a document looks like, filtering leaves nothing to do. -/
theorem filters_unfiltered : Filters (fun _ => True) Unfiltered fun _ => True where
  leaf _ := by simp [Unfiltered, walk, NeedsFiltering]
  branch _ other filtered := unfiltered_branch.mpr ⟨other, filtered⟩
  inclusion _ filtered := unfiltered_inclusion.mpr filtered
  inheritance _ := by simp [Unfiltered, walk, NeedsFiltering]
  unfiltered _ := unfiltered_raw.mpr rfl
  text _ := by simp [Unfiltered, walk, NeedsFiltering]
  blames _ _ := trivial
  blamesEntry _ _ _ := trivial
  unread _ _ _ := trivial

end Node

namespace FilterSet

variable (set : FilterSet)

mutual

theorem rewritten_applyToNode : ∀ node : Node,
    Satisfies (set.applyToNode node) node.Rewritten fun _ => True
  | .leaf .. => by
      unfold applyToNode
      exact .pure (.bare rfl id)
  | .branch span label children => by
      unfold applyToNode
      apply Satisfies.bind (rewritten_applyToNodes children)
      intro rewritten inside
      split
      · rename_i name attributes body
        have needs : (Node.branch span (.filter name attributes body) children).NeedsFiltering :=
          ⟨name, attributes, body, rfl⟩
        exact .bind (.trivial _) fun _ _ => .bind (.trivial _) fun _ _ => .pure (.text needs _)
      · rename_i other
        exact .pure (.branch (fun ⟨name, attributes, body, same⟩ => other _ _ _ same) inside)
  | .file span use reference loaded children => by
      unfold applyToNode
      cases use with
      | inheritance => exact .pure (.bare rfl (by simp [Node.NeedsFiltering]))
      | inclusion body =>
          exact .bind (rewritten_applyToNodes children) fun _ inside => .pure (.inclusion inside)
      | raw filters =>
          dsimp only
          split
          · rename_i none
            obtain rfl := List.reverse_eq_nil_iff.mp none
            exact .pure (.bare rfl (by simp [Node.NeedsFiltering]))
          · rename_i innermost outer order
            have some : filters ≠ [] := by
              rintro rfl
              cases order
            have needs : (Node.file span (.raw filters) reference loaded children).NeedsFiltering :=
              ⟨filters, rfl, some⟩
            exact .bind (.trivial _) fun _ _ => .bind (.trivial _) fun _ _ =>
              .bind (.trivial _) fun _ _ => .pure (.text needs _)

theorem rewritten_applyToNodes : ∀ nodes : List Node,
    Satisfies (set.applyToNodes nodes) (List.Forall₂ Node.Rewritten nodes) fun _ => True
  | [] => by
      unfold applyToNodes
      exact .pure .nil
  | node :: rest => by
      unfold applyToNodes
      exact .bind (rewritten_applyToNode node) fun _ first =>
        .bind (rewritten_applyToNodes rest) fun _ others => .pure (.cons first others)

end

variable {set}

mutual

theorem applyToNode_eq : ∀ {node : Node}, node.Unfiltered → ∀ state,
    set.applyToNode node state = .ok node state
  | .leaf .., _, _ => rfl
  | .branch _ label children, unfiltered, state => by
      rw [Node.unfiltered_branch] at unfiltered
      unfold applyToNode
      refine (bind_of_ok (applyToNodes_eq unfiltered.2 state)).trans ?_
      cases label
      case filter name attributes body => exact absurd rfl (unfiltered.1 name attributes body)
      all_goals rfl
  | .file _ use _ _ children, unfiltered, state => by
      unfold applyToNode
      cases use with
      | inheritance => rfl
      | inclusion body =>
          exact bind_of_ok (applyToNodes_eq (Node.unfiltered_inclusion.mp unfiltered) state)
      | raw filters =>
          obtain rfl := Node.unfiltered_raw.mp unfiltered
          rfl

theorem applyToNodes_eq : ∀ {nodes : List Node}, Node.Every Node.Unfiltered nodes → ∀ state,
    set.applyToNodes nodes state = .ok nodes state
  | [], _, _ => rfl
  | _ :: _, unfiltered, state => by
      rw [Node.every_cons] at unfiltered
      unfold applyToNodes
      exact (bind_of_ok (applyToNode_eq unfiltered.1 state)).trans
        (bind_of_ok (applyToNodes_eq unfiltered.2 state))

end

/-- A document in which nothing needs filtering is not changed by it. -/
theorem apply_eq {document : Document} (unfiltered : Node.Every Node.Unfiltered document.nodes)
    (events : Array Event) :
    set.apply document events = .ok document (events.push (.filtersApplied 0)) := by
  have applied : set.applyToNodes document.nodes { events := events } =
      .ok document.nodes { events := events } :=
    applyToNodes_eq unfiltered _
  simp only [apply, applied]

end FilterSet

/-- Filtering puts one text in the place of each outermost node that needs it, and changes nothing
else: every list of nodes keeps its length and its order. Nothing in the document needs filtering
then, at any depth, so that filtering it again does not change it, with whatever filters. -/
theorem FilterSet.apply_rewrites (set : FilterSet) (document : Document) :
    Satisfies (set.apply document)
      (fun filtered =>
        filtered.span = document.span ∧
        List.Forall₂ Node.Rewritten document.nodes filtered.nodes ∧
        (∀ node ∈ filtered.walk, ¬node.NeedsFiltering) ∧
        ∀ (other : FilterSet) (events : Array Event),
          other.apply filtered events = .ok filtered (events.push (.filtersApplied 0)))
      fun _ => True := by
  have rewritten : Satisfies (set.apply document)
      (fun filtered => filtered.span = document.span ∧
        List.Forall₂ Node.Rewritten document.nodes filtered.nodes) fun _ => True := by
    intro events
    have done := set.rewritten_applyToNodes document.nodes { events := events }
    dsimp only [FilterSet.apply]
    revert done
    cases set.applyToNodes document.nodes { events := events } with
    | ok nodes state => exact fun done => ⟨rfl, done⟩
    | error fault state => exact id
  have unfiltered : Satisfies (set.apply document)
      (fun filtered => Node.Every Node.Unfiltered filtered.nodes) fun _ => True :=
    Node.filters_unfiltered.satisfies_apply set fun _ _ => trivial
  refine (rewritten.and unfiltered).mono ?_ fun _ => id
  rintro filtered ⟨⟨span, nodes⟩, unfiltered⟩
  exact ⟨span, nodes, Node.every_walkAll_iff.mpr unfiltered, fun other => apply_eq unfiltered⟩

end Offside
