import Offside.Proofs.Contract.Finished
import Offside.Proofs.Contract.Linking

/-!
# The normal form of linking

What linking is there to do can be seen from the nodes of a document: ancestors and included files
are still to be put in their places, named blocks to be dissolved, and unfiltered files to be pasted
as text. In what linking gives nothing of this is left, however the document was made and whatever
is known of its files; and a document in which nothing of this is left is not changed.
-/

namespace Offside

open Computing

/-- Linking has something to do at a node itself. A file that goes through filters is left to them,
whatever is known of it. -/
def Node.NeedsLinking : Node → Prop
  | .leaf .. => False
  | .branch _ label _ => ∃ name mode, label = .namedBlock name mode
  | .file _ use _ _ _ => ∀ filters, use = .raw filters → filters = []

/-- Linking has nothing to do at any depth of a document. -/
def Document.IsNormal (document : Document) : Prop :=
  ∀ node ∈ document.walk, ¬node.NeedsLinking

namespace Node

theorem Has.not_needsLinking {node : Node} (has : node.Has .normal) : ¬node.NeedsLinking := by
  cases node with
  | leaf => exact id
  | branch =>
      rintro ⟨name, mode, isBlock⟩
      exact has.1 name mode isBlock
  | file _ use =>
      cases use with
      | raw filters => exact fun needs => has (needs filters rfl)
      | inclusion | inheritance => exact has.elim

mutual

theorem has_normal : ∀ {node : Node}, Every (fun found => ¬found.NeedsLinking) node.walk →
    node.Has .normal
  | .leaf .., _ => trivial
  | .branch _ label children, free => by
      rw [walk, every_cons] at free
      exact ⟨fun name mode isBlock => free.1 ⟨name, mode, isBlock⟩, haveAll_normal free.2⟩
  | .file _ use _ _ _, free => by
      cases use with
      | raw filters =>
          rw [walk, every_cons] at free
          · rintro rfl
            exact free.1 fun _ => by rintro ⟨⟩; rfl
          · simp
      | inclusion | inheritance => simp [walk, NeedsLinking] at free

theorem haveAll_normal : ∀ {nodes : List Node},
    Every (fun found => ¬found.NeedsLinking) (walkAll nodes) → HaveAll .normal nodes
  | [], _ => trivial
  | _ :: _, free => by
      rw [walkAll, every_append] at free
      exact ⟨has_normal free.1, haveAll_normal free.2⟩

end

/-- Linking puts all templates in their places, whatever the documents look like. -/
theorem joins_merged : Joins (fun _ => True) (Has .merged) fun _ => True where
  leaf _ := trivial
  branch _ filled := ⟨trivial, haveAll_iff_every.mpr filled⟩
  template _ _ := fun _ _ => trivial
  unloaded _ _ _ := trivial
  text _ := trivial
  unread _ _ := trivial
  filtered _ nonempty := nonempty
  blames _ _ _ _ := trivial
  blamesLinked _ _ _ _ := trivial

end Node

theorem Document.isNormal_iff {document : Document} :
    document.IsNormal ↔ Node.HaveAll .normal document.nodes := by
  refine ⟨fun free => Node.haveAll_normal free, fun has node found => ?_⟩
  exact (Node.every_walkAll (Node.haveAll_iff_every.mp has) node found).not_needsLinking

theorem isNormal_link {document page : Document} {events after : Array Event}
    (linked : link document events = .ok page after) : page.IsNormal := by
  have dissolves : Node.Dissolves (Node.Has .merged) (Node.Has .normal) :=
    Node.dissolves_has (fun _ _ unnamed => unnamed) fun _ _ => id
  have reaches : Satisfies (link document) (fun page => Node.Every (Node.Has .normal) page.nodes)
      fun _ => True :=
    Node.joins_merged.satisfies_link dissolves fun _ _ => trivial
  have normal := reaches events
  rw [linked] at normal
  exact Document.isNormal_iff.mpr (Node.haveAll_iff_every.mpr normal)

/-- What linking gives is in normal form, and linking it again does not change it; the documents
that linking does not change are those in normal form. -/
theorem link_reaches_normal_form (document : Document) (events : Array Event) :
    (∀ page after, link document events = .ok page after → page.IsNormal ∧
      ∀ later, link page later = .ok page (later.push (.linked 0 0 page.nodes.length))) ∧
    (document.IsNormal ↔
      link document events = .ok document (events.push (.linked 0 0 document.nodes.length))) := by
  refine ⟨fun page after linked => ?_, fun normal => ?_, isNormal_link⟩
  · have normal := isNormal_link linked
    exact ⟨normal, link_eq (Document.isNormal_iff.mp normal)⟩
  · exact link_eq (Document.isNormal_iff.mp normal) events

/-- A template that adds to a block of its base. The base includes a heading, pastes a text and
keeps a file for a filter. -/
def chapterDocument : Document where
  nodes := [
    .file {} .inheritance { span := {}, path := "base", root := some {} }
      [.file {} (.inclusion {}) { span := {}, path := "heading", root := some {} }
          [.branch {} (.tag ⟨"h1", false, false, false, []⟩ {}) [.leaf {} .yieldSlot]]
          [.leaf {} (.text "Title" false)],
        .branch {} (.namedBlock "content" .replace)
          [.file {} (.raw []) { span := {}, path := "note.txt", contents := some "a\r\nb" } [] []],
        .file {} (.raw [⟨{}, "upper", []⟩]) { span := {}, path := "tail.txt" } [] []]
      [],
    .branch {} (.namedBlock "content" .append) [.leaf {} (.text "new" false)]]

/-- The chapter in one document. -/
def chapterPage : Document where
  nodes := [
    .branch {} (.tag ⟨"h1", false, false, false, []⟩ {}) [.leaf {} (.text "Title" false)],
    .leaf {} (.text "a\nb" false),
    .leaf {} (.text "new" false),
    .file {} (.raw [⟨{}, "upper", []⟩]) { span := {}, path := "tail.txt" } [] []]

theorem link_reaches_normal_form_chapter :
    (∃ after, link chapterDocument #[] = .ok chapterPage after) ∧ chapterPage.IsNormal ∧
      link chapterPage #[] = .ok chapterPage #[.linked 0 0 4] := by
  have linked : link chapterDocument #[] = .ok chapterPage _ := rfl
  rcases (link_reaches_normal_form chapterDocument #[]).1 _ _ linked with ⟨normal, -⟩
  exact ⟨⟨_, linked⟩, normal, (link_reaches_normal_form chapterPage #[]).2.mp normal⟩

end Offside
