import Offside.Filter.Apply
import Offside.Proofs.Parallel
import Offside.Proofs.Renumbering.Document

/-!
# Filters and line numbers

A filter is given a text and options, neither of which has a line number.
-/

namespace Offside

open Computing

variable {line : Nat → Nat}

/-- From related states filtering gives the same with other line numbers, or fails for the same
reason at the same node. -/
def Filtering.Renumbers {α : Type} (line : Nat → Nat) (renumber : α → α)
    (action other : Filtering α) : Prop :=
  Parallel (fun _ _ => True) (fun value value' => value' = renumber value)
    (fun fault fault' => fault' = { fault with span := fault.span.renumber line }) action other

namespace Filtering.Renumbers

variable {α β : Type} {first : α → α} {last : β → β} {action other : Filtering α}
  {next otherNext : α → Filtering β}

theorem pure {value value' : α} (same : value' = first value) :
    Renumbers line first (pure value) (pure value') :=
  Parallel.pure same

theorem bind (before : Renumbers line first action other)
    (after : ∀ value, Renumbers line last (next value) (otherNext (first value))) :
    Renumbers line last (action >>= next) (other >>= otherNext) :=
  Parallel.bind_change before after

theorem fail (span : Span) (cause : FilterFault) :
    Renumbers line first (Filtering.fail span cause)
      (Filtering.fail (span.renumber line) cause) :=
  Parallel.throw rfl

/-- What is counted and noted may differ. -/
theorem modify (change change' : FilterState → FilterState) :
    Renumbers line id (modify change) (modify change') :=
  fun _ _ _ => ⟨rfl, trivial⟩

theorem require (span : Span) (result : Except FilterFault α) :
    Renumbers line id (Filtering.require span result)
      (Filtering.require (span.renumber line) result) := by
  cases result with
  | ok value => exact .pure rfl
  | error cause => exact .fail span cause

theorem accept (span : Span) (name : String) (result : Except String String) :
    Renumbers line id (Filtering.accept span name result)
      (Filtering.accept (span.renumber line) name result) := by
  cases result with
  | ok text => exact .pure rfl
  | error message => exact .fail span _

end Filtering.Renumbers

theorem FilterOptions.ofAttributes_renumber (attributes : List Attribute) :
    ofAttributes (attributes.map (Attribute.renumber line)) = ofAttributes attributes := by
  unfold ofAttributes
  rw [List.foldl_map]
  rfl

theorem bodyText_renumber (nodes : List Node) :
    bodyText (Node.renumberAll line nodes) = bodyText nodes := by
  unfold bodyText
  rw [Node.renumberAll_eq_map, List.filterMap_map]
  refine congrArg (fun value => String.join (List.filterMap value nodes)) (funext fun node => ?_)
  cases node with
  | branch | file => rfl
  | leaf _ content => cases content <;> rfl

namespace FilterSet

variable (set : FilterSet)

theorem options_renumber (name resolved : String) (attributes : List Attribute)
    (file : Option String) :
    set.options name resolved (attributes.map (Attribute.renumber line)) file =
      set.options name resolved attributes file := by
  unfold options
  rw [FilterOptions.ofAttributes_renumber]

theorem renumbers_applyToText (name : String) (attributes : List Attribute) (text : String)
    (file : Option String) (span : Span) :
    Filtering.Renumbers line id (set.applyToText name attributes text file span)
      (set.applyToText name (attributes.map (Attribute.renumber line)) text file
        (span.renumber line)) := by
  refine .bind (.require span (set.find name)) fun found => .bind (.modify _ _) fun _ => ?_
  rw [options_renumber]
  exact .accept span name _

theorem renumbers_applyInTurn (file : Option String) (filters : List IncludeFilter)
    (text : String) :
    Filtering.Renumbers line id (set.applyInTurn file filters text)
      (set.applyInTurn file (filters.map (IncludeFilter.renumber line)) text) := by
  induction filters generalizing text with
  | nil => exact .pure rfl
  | cons filter rest ih =>
      exact .bind (set.renumbers_applyToText _ _ _ _ _) fun text => ih text

theorem renumbers_applyToFile (entry : IncludeFilter) (reference : Reference) (span : Span) :
    Filtering.Renumbers line id (set.applyToFile entry reference span)
      (set.applyToFile (entry.renumber line) (reference.renumber line) (span.renumber line)) := by
  refine .bind (.require entry.span (set.find entry.name)) fun found => ?_
  simp only [IncludeFilter.renumber, Reference.renumber, options_renumber, id]
  split
  · cases reference.bytes with
    | none => exact .fail span _
    | some bytes => exact .accept entry.span _ _
  · cases reference.contents with
    | none => exact .fail span _
    | some contents => exact .accept entry.span _ _

mutual

theorem renumbers_applyToNode : ∀ node : Node,
    Filtering.Renumbers line (Node.renumber line) (set.applyToNode node)
      (set.applyToNode (node.renumber line))
  | .leaf .. => by
      simp only [Node.renumber_leaf, applyToNode]
      exact .pure rfl
  | .branch span label children => by
      simp only [Node.renumber_branch, applyToNode]
      refine .bind (renumbers_applyToNodes children) fun children => ?_
      cases label with
      | filter name attributes body =>
          simp only [Label.renumber, bodyText_renumber]
          exact .bind (.modify _ _) fun _ =>
            .bind (set.renumbers_applyToText name attributes _ span.file span) fun text => .pure rfl
      | block | namedBlock | tag | variableTag | mixin | blockComment => exact .pure rfl
  | .file span use reference loaded children => by
      simp only [Node.renumber_file, applyToNode]
      cases use with
      | inheritance => exact .pure rfl
      | inclusion body =>
          exact .bind (renumbers_applyToNodes children) fun children => .pure rfl
      | raw filters =>
          simp only [FileUse.renumber]
          rw [← List.map_reverse]
          cases filters.reverse with
          | nil => exact .pure (by simp [FileUse.renumber])
          | cons innermost outer =>
              exact .bind (.modify _ _) fun _ =>
                .bind (set.renumbers_applyToFile innermost reference span) fun text =>
                  .bind (set.renumbers_applyInTurn reference.fullPath outer text) fun text =>
                    .pure rfl

theorem renumbers_applyToNodes : ∀ nodes : List Node,
    Filtering.Renumbers line (Node.renumberAll line) (set.applyToNodes nodes)
      (set.applyToNodes (Node.renumberAll line nodes))
  | [] => by
      simp only [Node.renumberAll_nil, applyToNodes]
      exact .pure rfl
  | node :: rest => by
      simp only [Node.renumberAll_cons, applyToNodes]
      exact .bind (renumbers_applyToNode node) fun node =>
        .bind (renumbers_applyToNodes rest) fun rest => .pure rfl

end

/-- A document with other line numbers is filtered to the same document with these line numbers. -/
theorem renumbers_apply (line : Nat → Nat) (document : Document) :
    Parallel (fun _ _ => True) (fun filtered filtered' => filtered' = filtered.renumber line)
      (fun fault fault' => fault' = { fault with span := fault.span.renumber line })
      (set.apply document) (set.apply (document.renumber line)) := by
  intro events events' _
  have start : True := trivial
  have done := @renumbers_applyToNodes line set document.nodes { events := events }
    { events := events' } start
  simp only [FilterSet.apply, Document.renumber]
  revert done
  cases set.applyToNodes document.nodes { events := events } <;>
    cases set.applyToNodes (Node.renumberAll line document.nodes) { events := events' }
  · rintro ⟨rfl, _⟩
    exact ⟨rfl, trivial⟩
  · exact id
  · exact id
  · exact id

end FilterSet

end Offside
