import Offside.Proofs.Confinement.Document
import Offside.Proofs.Contract.Linking
import Offside.Proofs.Inheritance.Template

/-!
# How the block of a call gets out of a mixin

Overrides are also found inside the mixins of an extending template. Merged into the ancestor, such
an override takes the place for the block of a call out of the declaration that it was written in.
This is the only way: if no named block in a declaration holds such a place, then linking keeps it
confined.
-/

namespace Offside

open Computing

namespace Node

instance : Movable Confined where
  block confined :=
    confinedAll_iff_every.mp (confined.resolve_left (by simp [Label.declaresMixin]))
  namedBlock confined :=
    confinedAll_iff_every.mp (confined.resolve_left (by simp [Label.declaresMixin]))
  branch confined filled := confined.imp_right (by simpa only [confinedAll_iff_every] using filled)
  inclusion confined filled :=
    ⟨confined.1, confinedAll_iff_every.mpr (filled (confinedAll_iff_every.mp confined.2))⟩

mutual

/-- No named block in the declaration of a mixin holds a place for the block of a call, other than
in further declarations. The node may stand in the declaration of a mixin itself. -/
def Sealed (inMixin : Bool) : Node → Prop
  | .leaf .. => True
  | .branch _ (.namedBlock ..) children =>
      (inMixin = true → ConfinedAll children) ∧ SealedAll inMixin children
  | .branch _ label children => SealedAll (inMixin || label.declaresMixin) children
  | .file _ _ _ _ children => SealedAll inMixin children

/-- No named block in the declaration of a mixin among some nodes holds a place for the block of a
call, other than in further declarations. -/
def SealedAll (inMixin : Bool) : List Node → Prop
  | [] => True
  | node :: rest => node.Sealed inMixin ∧ SealedAll inMixin rest

end

mutual

/-- Whether a node is sealed can be computed. -/
def decidableSealed (inMixin : Bool) : ∀ node : Node, Decidable (node.Sealed inMixin)
  | .leaf .. => isTrue trivial
  | .branch _ label children =>
      have := decidableSealedAll (inMixin || label.declaresMixin) children
      match label with
      | .namedBlock .. =>
          have := decidableSealedAll inMixin children
          inferInstanceAs (Decidable
            ((inMixin = true → ConfinedAll children) ∧ SealedAll inMixin children))
      | .block | .tag .. | .variableTag .. | .mixin .. | .blockComment .. | .filter .. => this
  | .file _ _ _ _ children => decidableSealedAll inMixin children

/-- Whether nodes are sealed can be computed. -/
def decidableSealedAll (inMixin : Bool) : ∀ nodes : List Node, Decidable (SealedAll inMixin nodes)
  | [] => isTrue trivial
  | node :: rest =>
      have := decidableSealed inMixin node
      have := decidableSealedAll inMixin rest
      inferInstanceAs (Decidable (node.Sealed inMixin ∧ SealedAll inMixin rest))

end

instance (inMixin : Bool) (nodes : List Node) : Decidable (SealedAll inMixin nodes) :=
  decidableSealedAll inMixin nodes

/-- Overrides can be taken from some nodes, which may stand in the declaration of a mixin. -/
structure Loose (inMixin : Bool) (nodes : List Node) : Prop where
  isSealed : SealedAll inMixin nodes
  confined : inMixin = false → ConfinedAll nodes

theorem loose_of_branch {inMixin : Bool} {span : Span} {label : Label} {children : List Node}
    (isSealed : (Node.branch span label children).Sealed inMixin)
    (confined : inMixin = false → (Node.branch span label children).Confined) :
    Loose (inMixin || label.declaresMixin) children := by
  refine ⟨?_, fun outside => ?_⟩
  · cases label
    case namedBlock => simpa [Label.declaresMixin] using isSealed.2
    all_goals exact isSealed
  · rw [Bool.or_eq_false_iff] at outside
    exact (confined outside.1).resolve_left (by simp [outside.2])

mutual

theorem confinedAll_overridesIn : ∀ {inMixin : Bool} {node : Node} (active : List String),
    node.Sealed inMixin → (inMixin = false → node.Confined) →
      ∀ entry ∈ overridesIn active node, ConfinedAll entry.nodes
  | _, .leaf .., _, _, _ => by simp [overridesIn]
  | inMixin, .branch _ label children, active, isSealed, confined => by
      have loose := loose_of_branch isSealed confined
      cases label
      case namedBlock =>
        unfold overridesIn
        split
        · simp
        · refine List.forall_mem_cons.mpr ⟨?_, confinedAll_overridesInAll _ loose⟩
          cases inMixin with
          | true => exact isSealed.1 rfl
          | false => exact loose.confined rfl
      all_goals
        unfold overridesIn
        exact confinedAll_overridesInAll _ loose
  | _, .file _ use _ _ _, active, isSealed, confined => by
      cases use with
      | inclusion body =>
          unfold overridesIn
          exact confinedAll_overridesInAll active ⟨isSealed, fun outside => (confined outside).2⟩
      | raw | inheritance => simp [overridesIn]

theorem confinedAll_overridesInAll : ∀ {inMixin : Bool} {nodes : List Node} (active : List String),
    Loose inMixin nodes → ∀ entry ∈ overridesInAll active nodes, ConfinedAll entry.nodes
  | _, [], _, _ => by simp [overridesInAll]
  | _, _ :: _, active, ⟨isSealed, confined⟩ => by
      unfold overridesInAll
      exact List.forall_mem_append.mpr
        ⟨confinedAll_overridesIn active isSealed.1 fun outside => (confined outside).1,
          confinedAll_overridesInAll active ⟨isSealed.2, fun outside => (confined outside).2⟩⟩

end

theorem sealedAll_iff_every {inMixin : Bool} {nodes : List Node} :
    SealedAll inMixin nodes ↔ Every (Sealed inMixin) nodes := by
  induction nodes with
  | nil => simp [SealedAll]
  | cons node rest ih => simp [SealedAll, ih]

/-- Overrides can be taken from the node, which stands outside of declarations. -/
structure GivesConfined (node : Node) : Prop where
  isSealed : node.Sealed false
  confined : node.Confined

theorem every_givesConfined_iff {nodes : List Node} :
    Every GivesConfined nodes ↔ SealedAll false nodes ∧ ConfinedAll nodes := by
  rw [sealedAll_iff_every, confinedAll_iff_every]
  exact ⟨fun gives => ⟨fun node member => (gives node member).isSealed,
    fun node member => (gives node member).confined⟩,
    fun both node member => ⟨both.1 node member, both.2 node member⟩⟩

instance : Dissolvable GivesConfined where
  block gives := every_givesConfined_iff.mpr
    ⟨gives.isSealed, gives.confined.resolve_left (by simp [Label.declaresMixin])⟩
  namedBlock gives := every_givesConfined_iff.mpr
    ⟨gives.isSealed.2, gives.confined.resolve_left (by simp [Label.declaresMixin])⟩

theorem GivesConfined.exists_loose {node : Node} (gives : node.GivesConfined) :
    ∃ inMixin, Loose inMixin (node.children?.getD []) := by
  cases node with
  | leaf => exact ⟨false, trivial, fun _ => trivial⟩
  | branch span label children => exact ⟨_, loose_of_branch gives.isSealed fun _ => gives.confined⟩
  | file span use reference loaded children =>
      cases use with
      | inclusion body => exact ⟨false, gives.isSealed, fun _ => gives.confined.2⟩
      | raw | inheritance => exact ⟨false, trivial, fun _ => trivial⟩

end Node

theorem every_confined_rootOverrides {items : List RootItem}
    (gives : ∀ item ∈ items, item.Holds Node.GivesConfined) :
    ∀ entry ∈ rootOverrides items, Node.Every Node.Confined entry.nodes := by
  refine every_rootOverrides (fun found member => ?_) fun node member entry inside => ?_
  · rcases Node.every_givesConfined_iff.mp (Node.Dissolvable.namedBlock (gives _ member)) with
      ⟨isSealed, confined⟩
    refine ⟨Node.confinedAll_iff_every.mp confined, fun entry inside => ?_⟩
    exact Node.confinedAll_iff_every.mp
      (Node.confinedAll_overridesInAll _ ⟨isSealed, fun _ => confined⟩ entry inside)
  · rcases Node.GivesConfined.exists_loose (gives _ member) with ⟨inMixin, loose⟩
    exact Node.confinedAll_iff_every.mp (Node.confinedAll_overridesInAll _ loose entry inside)

/-! ### Linking -/

/-- In no template that extends another, its included files being in their places, does a named
block in the declaration of a mixin hold a place for the block of a call. This is asked of the
document and of all templates that it reaches. -/
def Document.Sealed (document : Document) : Prop :=
  ∀ template : Descendant, document.Reaches template.document →
    Satisfies (includeAllFiles template.nodes) (Node.SealedAll false) fun _ => True

theorem Document.Sealed.of_refers {document template : Document} (isSealed : document.Sealed)
    (refers : document.Refers template) : template.Sealed :=
  fun descendant reaches => isSealed descendant (.head refers reaches)

theorem Document.Sealed.allIncluded {document : Document} (isSealed : document.Sealed) :
    Node.AllIncluded Document.Sealed document.walk :=
  fun _ _ _ _ _ _ found known => isSealed.of_refers (.inclusion found known)

mutual

theorem confined_includeFiles : ∀ {node : Node}, node.Confined →
    Node.AllIncluded Document.Sealed node.walk →
      Satisfies (includeFiles node) (Node.Every Node.Confined) fun _ => True
  | .leaf .., confined, _ => by
      unfold includeFiles
      exact .pure (.single confined)
  | .branch span label children, confined, isSealed => by
      have inside : Satisfies (includeAllFiles children)
          (fun found => Node.ConfinedAll children → Node.Every Node.Confined found)
          fun _ => True :=
        .of_imp fun confined =>
          confined_includeAllFiles confined (Node.allIncluded_walk_branch.mp isSealed)
      unfold includeFiles
      exact .bind inside fun found foundConfined => .pure (.single
        (confined.imp_right fun childrenConfined =>
          Node.confinedAll_iff_every.mpr (foundConfined childrenConfined)))
  | .file span use reference loaded children, confined, isSealed => by
      unfold includeFiles
      cases use with
      | inclusion body =>
          rcases Node.allIncluded_walk_inclusion.mp isSealed with ⟨template, inside⟩
          refine .bind (confined_includeAllFiles confined.2 inside) fun given givenConfined => ?_
          split
          · exact .throw trivial
          · rename_i root known
            exact .bind (confined_linkNodes root confined.1 (template root known))
              fun included found => satisfies_spliceIncluded found givenConfined
      | raw filters =>
          cases filters with
          | nil =>
              dsimp only
              split
              · exact .throw trivial
              · exact .pure (.single (by simp [Node.Confined]))
          | cons => exact .pure (.single confined)
      | inheritance => exact .pure (.single confined)

theorem confined_includeAllFiles : ∀ {nodes : List Node}, Node.ConfinedAll nodes →
    Node.AllIncluded Document.Sealed (Node.walkAll nodes) →
      Satisfies (includeAllFiles nodes) (Node.Every Node.Confined) fun _ => True
  | [], _, _ => by
      unfold includeAllFiles
      exact .pure Node.every_nil
  | _ :: _, confined, isSealed => by
      rcases Node.allIncluded_append.mp isSealed with ⟨first, others⟩
      unfold includeAllFiles
      exact .bind (confined_includeFiles confined.1 first) fun _ firstConfined =>
        .bind (confined_includeAllFiles confined.2 others) fun _ othersConfined =>
          .pure (Node.every_append.mpr ⟨firstConfined, othersConfined⟩)

/-- Linking keeps a template confined whose overrides are. -/
theorem confined_linkNodes (root : Span) : ∀ {nodes : List Node}, Node.ConfinedAll nodes →
    Document.Sealed ⟨root, nodes⟩ →
      Satisfies (linkNodes root nodes)
        (fun linked => Node.Every Node.Confined linked.document.nodes) fun _ => True
  | [], _, _ => by
      unfold linkNodes
      exact .pure Node.every_nil
  | node :: rest, confined, isSealed => by
      rcases Node.allIncluded_append.mp isSealed.allIncluded with ⟨first, others⟩
      have included := confined_includeAllFiles confined.2 others
      have plain : Satisfies (do
          forbidInheritance (node :: rest)
          let nodes ← includeFiles node
          return (⟨⟨root, nodes ++ (← includeAllFiles rest)⟩, false⟩ : Linked))
          (fun linked => Node.Every Node.Confined linked.document.nodes) fun _ => True :=
        .bind (.trivial _) fun _ _ =>
          .bind (confined_includeFiles confined.1 first) fun _ firstConfined =>
            .bind included fun _ othersConfined =>
              .pure (Node.every_append.mpr ⟨firstConfined, othersConfined⟩)
      unfold linkNodes
      split
      · contradiction
      · cases ‹_ :: _ = _›
        rename_i span reference loaded children
        let template : Descendant := ⟨root, span, reference, loaded, children, rest⟩
        apply Satisfies.bind (.trivial _)
        intro _ _
        apply Satisfies.bind (included.and (isSealed template .refl))
        intro nodes both
        have gives : Node.Every Node.GivesConfined nodes :=
          Node.every_givesConfined_iff.mpr ⟨both.2, Node.confinedAll_iff_every.mpr both.1⟩
        apply Satisfies.bind (satisfies_rootItemsOfAll (fun _ _ _ _ => trivial) gives)
        intro items itemsGive
        split
        · exact .throw trivial
        · rename_i ancestorRoot known
          apply Satisfies.bind (.modify _)
          intro _ _
          have ancestorSealed : Document.Sealed ⟨ancestorRoot, loaded⟩ :=
            isSealed.of_refers (.extension List.mem_cons_self known)
          apply Satisfies.bind (confined_linkNodes ancestorRoot confined.1.1 ancestorSealed)
          intro ancestor ancestorConfined
          exact .bind
            (satisfies_inheritFrom (fun _ _ _ _ => trivial)
              (fun item member => Node.GivesConfined.confined (itemsGive item member))
              (every_confined_rootOverrides itemsGive) ancestorConfined)
            fun document documentConfined => .pure documentConfined
      · cases ‹_ :: _ = _›
        exact plain

end

/-- Linking keeps a document confined when all overrides in it and in the templates that it reaches
are. -/
theorem confinedAll_link {document : Document} (confined : Node.ConfinedAll document.nodes)
    (isSealed : document.Sealed) :
    Satisfies (link document) (fun linked => Node.ConfinedAll linked.nodes) fun _ => True := by
  have linked : Satisfies (linkDocument document)
      (fun linked => Node.ConfinedAll linked.nodes) fun _ => True :=
    .bind (confined_linkNodes document.span confined isSealed) fun linked found =>
      .pure (Node.confinedAll_iff_every.mpr
        (Node.every_dissolveAllBlocks Node.Movable.dissolves found))
  intro events
  have done := linked { events := events }
  dsimp only [link]
  revert done
  cases linkDocument document { events := events } <;> exact id

end Offside
