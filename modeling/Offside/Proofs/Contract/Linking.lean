import Offside.Proofs.Contract.Movement

/-!
# What linking leaves in a document

Linking puts each template in its place. Content moves between documents on the way: overrides are
merged, yields are given blocks, mixins of an extending template go in front. None of these brings
in anything that was not in one of the documents, so a property of their nodes becomes one of the
nodes of the linked document. For loaded documents this is a common shape.
-/

namespace Offside

open Computing

namespace Node

/-! ### Nodes that come from other nodes -/

section

variable {holds : Node → Prop}

mutual

theorem every_overridesIn [Hereditary holds] : ∀ {node : Node} (active : List String),
    holds node → ∀ entry ∈ overridesIn active node, Every holds entry.nodes
  | .leaf .., _, _ => by simp [overridesIn]
  | .branch _ label children, active, found => by
      have inside : Every holds children := Hereditary.children found
      cases label
      case namedBlock =>
        unfold overridesIn
        split
        · simp
        · exact List.forall_mem_cons.mpr ⟨inside, every_overridesInAll _ inside⟩
      all_goals
        unfold overridesIn
        exact every_overridesInAll active inside
  | .file _ use _ _ _, active, found => by
      cases use with
      | raw filters => simp [overridesIn]
      | inheritance => simp [overridesIn]
      | inclusion body =>
          unfold overridesIn
          exact every_overridesInAll active (Hereditary.children found)

theorem every_overridesInAll [Hereditary holds] : ∀ {nodes : List Node} (active : List String),
    Every holds nodes → ∀ entry ∈ overridesInAll active nodes, Every holds entry.nodes
  | [], _, _ => by simp [overridesInAll]
  | _ :: _, active, found => by
      rw [every_cons] at found
      unfold overridesInAll
      exact List.forall_mem_append.mpr
        ⟨every_overridesIn active found.1, every_overridesInAll active found.2⟩

end

theorem every_rootOverrides_of_hereditary [Hereditary holds] {items : List RootItem}
    (found : ∀ item ∈ items, item.Holds holds) :
    ∀ entry ∈ rootOverrides items, Every holds entry.nodes := by
  refine every_rootOverrides (fun block member => ?_) fun node member => ?_
  · have inside : Every holds block.nodes := Hereditary.children (found _ member)
    exact ⟨inside, every_overridesInAll _ inside⟩
  · exact every_overridesInAll _ (Hereditary.children (found _ member))

end

/-! ### Linking in general -/

/-- Linking turns a property of the nodes of templates into another one of the nodes of linked
documents, and only such faults come up as are allowed. -/
structure Joins (before after : Node → Prop) (allowed : Diagnostic LinkFault → Prop) : Prop where
  leaf : ∀ {span content}, before (.leaf span content) → after (.leaf span content)
  branch : ∀ {span label children filled}, before (.branch span label children) →
    Every after filled → after (.branch span label filled)
  template : ∀ {span use reference loaded children},
    before (.file span use reference loaded children) → (∀ filters, use ≠ .raw filters) →
      Every before loaded
  unloaded : ∀ {span use reference loaded children},
    before (.file span use reference loaded children) → (∀ filters, use ≠ .raw filters) →
      reference.root = none → allowed ⟨.unloadedFile reference.path, span, none⟩
  text : ∀ {span reference loaded children value},
    before (.file span (.raw []) reference loaded children) →
      after (.leaf span (.text value false))
  unread : ∀ {span reference loaded children},
    before (.file span (.raw []) reference loaded children) → reference.contents = none →
      allowed ⟨.unloadedFile reference.path, span, none⟩
  filtered : ∀ {span filters reference loaded children},
    before (.file span (.raw filters) reference loaded children) → filters ≠ [] →
      after (.file span (.raw filters) reference loaded children)
  blames : Blames before allowed
  blamesLinked : Blames after allowed

end Node

theorem satisfies_forbidInheritance {before : Node → Prop} {allowed : Diagnostic LinkFault → Prop}
    {nodes : List Node} (blames : Node.Blames before allowed)
    (found : Node.Every before (Node.walkAll nodes)) :
    Satisfies (forbidInheritance nodes)
      (fun _ => ∀ node ∈ Node.walkAll nodes, node.isInheritance = false) allowed := by
  unfold forbidInheritance
  cases misplaced : (Node.walkAll nodes).find? (·.isInheritance) with
  | some node =>
      exact .throw (blames (found node (List.mem_of_find?_eq_some misplaced)) (by simp))
  | none =>
      exact .pure fun node member => by simpa using List.find?_eq_none.mp misplaced node member

theorem notInheritance_of_cons {node : Node} {rest : List Node}
    (free : ∀ found ∈ Node.walkAll (node :: rest), found.isInheritance = false) :
    (∀ found ∈ node.walk, found.isInheritance = false) ∧
      ∀ found ∈ Node.walkAll rest, found.isInheritance = false :=
  List.forall_mem_append.mp free

section

variable {before after : Node → Prop} {allowed : Diagnostic LinkFault → Prop}

mutual

theorem satisfies_includeFiles [Node.Hereditary before] [Node.Hereditary after] [Node.Movable after]
    (joins : Node.Joins before after allowed) :
    ∀ {node : Node}, before node → (∀ found ∈ node.walk, found.isInheritance = false) →
      Satisfies (includeFiles node) (Node.Every after) allowed
  | .leaf .., found, _ => by
      unfold includeFiles
      exact .pure (.single (joins.leaf found))
  | .branch _ _ children, found, free => by
      have inside : Node.Every before children := Node.Hereditary.children found
      unfold includeFiles
      refine .bind (satisfies_includeAllFiles joins inside fun node member => free node ?_)
        fun _ filled => .pure (.single (joins.branch found filled))
      simp [Node.walk, member]
  | .file span use reference loaded children, found, free => by
      unfold includeFiles
      cases use with
      | inclusion body =>
          have inside : Node.Every before children := Node.Hereditary.children found
          refine .bind (satisfies_includeAllFiles joins inside fun node member => free node ?_)
            fun given givenHold => ?_
          · simp [Node.walk, member]
          split
          · rename_i unknown
            exact .throw (joins.unloaded found (by simp) unknown)
          · rename_i root known
            exact .bind (satisfies_linkNodes joins root (joins.template found (by simp)))
              fun included has => satisfies_spliceIncluded has givenHold
      | raw filters =>
          cases filters with
          | nil =>
              dsimp only
              split
              · rename_i unknown
                exact .throw (joins.unread found unknown)
              · exact .pure (.single (joins.text found))
          | cons => exact .pure (.single (joins.filtered found (by simp)))
      | inheritance =>
          have inherits := free (.file span .inheritance reference loaded children)
            (by simp [Node.walk])
          cases inherits

theorem satisfies_includeAllFiles [Node.Hereditary before] [Node.Hereditary after]
    [Node.Movable after]
    (joins : Node.Joins before after allowed) :
    ∀ {nodes : List Node}, Node.Every before nodes →
      (∀ found ∈ Node.walkAll nodes, found.isInheritance = false) →
        Satisfies (includeAllFiles nodes) (Node.Every after) allowed
  | [], _, _ => by
      unfold includeAllFiles
      exact .pure Node.every_nil
  | _ :: _, found, free => by
      rw [Node.every_cons] at found
      rcases notInheritance_of_cons free with ⟨first, others⟩
      unfold includeAllFiles
      exact .bind (satisfies_includeFiles joins found.1 first) fun _ has =>
        .bind (satisfies_includeAllFiles joins found.2 others) fun _ othersHave =>
          .pure (Node.every_append.mpr ⟨has, othersHave⟩)

theorem satisfies_linkNodes [Node.Hereditary before] [Node.Hereditary after] [Node.Movable after]
    (joins : Node.Joins before after allowed) (root : Span) :
    ∀ {nodes : List Node}, Node.Every before nodes →
      Satisfies (linkNodes root nodes) (fun linked => Node.Every after linked.document.nodes)
        allowed
  | [], _ => by
      unfold linkNodes
      exact .pure Node.every_nil
  | node :: rest, found => by
      have whole := found
      rw [Node.every_cons] at found
      have plain : Satisfies (do
          forbidInheritance (node :: rest)
          let nodes ← includeFiles node
          return (⟨⟨root, nodes ++ (← includeAllFiles rest)⟩, false⟩ : Linked))
          (fun linked => Node.Every after linked.document.nodes) allowed := by
        apply Satisfies.bind
          (satisfies_forbidInheritance joins.blames (Node.every_walkAll whole))
        intro _ free
        rcases notInheritance_of_cons free with ⟨first, others⟩
        exact .bind (satisfies_includeFiles joins found.1 first) fun _ has =>
          .bind (satisfies_includeAllFiles joins found.2 others) fun _ othersHave =>
            .pure (Node.every_append.mpr ⟨has, othersHave⟩)
      unfold linkNodes
      split
      · contradiction
      · cases ‹_ :: _ = _›
        rename_i span reference loaded children
        apply Satisfies.bind
          (satisfies_forbidInheritance joins.blames (Node.every_walkAll found.2))
        intro _ free
        apply Satisfies.bind (satisfies_includeAllFiles joins found.2 free)
        intro nodes has
        apply Satisfies.bind (satisfies_rootItemsOfAll joins.blamesLinked has)
        intro items itemsHave
        split
        · rename_i unknown
          exact .throw (joins.unloaded found.1 (by simp) unknown)
        · rename_i ancestorRoot known
          apply Satisfies.bind (.modify _)
          intro _ _
          apply Satisfies.bind
            (satisfies_linkNodes joins ancestorRoot (joins.template found.1 (by simp)))
          intro ancestor ancestorHas
          exact .bind
            (satisfies_inheritFrom joins.blamesLinked itemsHave
              (Node.every_rootOverrides_of_hereditary itemsHave) ancestorHas)
            fun document documentHas => .pure documentHas
      · cases ‹_ :: _ = _›
        exact plain

end

/-- Linking turns a property of the nodes of a document into one of the linked nodes, of which some
is left when the named blocks are dissolved. -/
theorem Node.Joins.satisfies_link [Node.Hereditary before] [Node.Hereditary after]
    [Node.Movable after]
    {final : Node → Prop} (joins : Node.Joins before after allowed)
    (dissolves : Node.Dissolves after final) {document : Document}
    (found : Node.Every before document.nodes) :
    Satisfies (link document) (fun linked => Node.Every final linked.nodes) allowed := by
  have linked : Satisfies (linkDocument document)
      (fun linked => Node.Every final linked.nodes) allowed :=
    .bind (satisfies_linkNodes joins document.span found) fun linked has =>
      .pure (Node.every_dissolveAllBlocks dissolves has)
  intro events
  have done := linked { events := events }
  dsimp only [link]
  revert done
  cases linkDocument document { events := events } <;> exact id

end

/-! ### Shapes -/

namespace Node

section

variable {shape other : Shape}

/-- What is in a branch does not change the shape of the branch itself. -/
instance : Movable (Has shape) where
  branch has filled :=
    ⟨has.1, haveAll_iff_every.mpr (filled (haveAll_iff_every.mp has.2))⟩
  inclusion has := has.elim
  block has := haveAll_iff_every.mp has.2
  namedBlock has := haveAll_iff_every.mp has.2

/-- Dissolving the named blocks takes their label, and no other one, from a shape. -/
theorem dissolves_has
    (branches : ∀ label, shape.branch label → (∀ name mode, label ≠ .namedBlock name mode) →
      other.branch label)
    (files : ∀ filters reference, shape.raw filters reference → other.raw filters reference) :
    Dissolves (Has shape) (Has other) where
  leaf _ := trivial
  branch unnamed has filled :=
    ⟨branches _ has.1 unnamed, haveAll_iff_every.mpr (filled (haveAll_iff_every.mp has.2))⟩
  namedBlock has := haveAll_iff_every.mp has.2
  file := by
    intro span use reference loaded children noInclusion has
    cases use with
    | raw filters => exact files _ _ has
    | inclusion body => exact has.elim
    | inheritance => exact has.elim
  inclusion has := has.elim

theorem haveAll_mergeNodes (mode : BlockMode) {ancestor child : List Node}
    (before : HaveAll shape ancestor) (given : HaveAll shape child) :
    HaveAll shape (mergeNodes mode ancestor child) := by
  rw [haveAll_iff_every] at before given ⊢
  exact every_mergeNodes mode before given

end

theorem filledAll_iff_every {nodes : List Node} : FilledAll nodes ↔ Every Filled nodes := by
  induction nodes with
  | nil => simp [FilledAll]
  | cons node rest ih => simp [FilledAll, ih]

instance : Hereditary Filled where
  children := by
    intro node filled
    cases node with
    | leaf => exact every_nil
    | branch => exact filledAll_iff_every.mp filled
    | file span use =>
        cases use with
        | inclusion => exact filledAll_iff_every.mp filled.2.2.2
        | raw | inheritance => exact every_nil

/-- Every reference of a loaded document is filled, so linking has nobody to blame for it. -/
theorem joins_filled :
    Joins Filled (Has .joined) fun fault => ∀ path, fault.cause ≠ .unloadedFile path where
  leaf _ := trivial
  branch _ filled := ⟨trivial, haveAll_iff_every.mpr filled⟩
  template {_ use _ _ _} filled isTemplate := by
    cases use with
    | raw filters => exact absurd rfl (isTemplate filters)
    | inclusion body => exact filledAll_iff_every.mp filled.2.2.1
    | inheritance => exact filledAll_iff_every.mp filled.2.2
  unloaded {_ use _ _ _} filled isTemplate unknown := by
    cases use with
    | raw filters => exact absurd rfl (isTemplate filters)
    | inclusion | inheritance =>
        have known := filled.2.1
        simp [unknown] at known
  text _ := trivial
  unread filled unknown := by
    have known := filled.contents
    simp [unknown] at known
  filtered filled nonempty := ⟨nonempty, filled⟩
  blames _ _ _ := id
  blamesLinked _ _ _ := id

end Node

/-- A loaded document is linked without blame, and the result refers to no file but those that go
through filters and has no named block. -/
theorem satisfies_link {document : Document} (filled : Node.FilledAll document.nodes) :
    Satisfies (link document) (fun linked => Node.HaveAll .linked linked.nodes)
      fun fault => ∀ path, fault.cause ≠ .unloadedFile path := by
  have dissolves : Node.Dissolves (Node.Has .joined) (Node.Has .linked) :=
    Node.dissolves_has (fun _ _ unnamed => unnamed) fun _ _ => id
  simpa only [Node.haveAll_iff_every] using
    Node.joins_filled.satisfies_link dissolves (Node.filledAll_iff_every.mp filled)

end Offside
