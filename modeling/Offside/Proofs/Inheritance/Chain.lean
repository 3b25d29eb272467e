import Mathlib.Data.List.Induction
import Offside.Proofs.Contract.Finished
import Offside.Proofs.Contract.Linking
import Offside.Proofs.Inheritance.Template

/-!
# Linking a chain of templates

Linking the last template of a chain merges the extensions into the base one after another, each
override into a tree that earlier overrides changed already. Since a block is never inside another
one, an override changes the content of the blocks of its name and nothing else. So all overrides
together are one fold for each name.
-/

namespace Offside

open Computing

mutual

/-- The node with other content in the blocks that can be replaced. -/
def Node.refill (content : String → List Node → List Node) : Node → Node
  | .leaf span value => .leaf span value
  | .branch span (.namedBlock name .replace) children =>
      .branch span (.namedBlock name .replace) (content name children)
  | .branch span label children => .branch span label (Node.refillAll content children)
  | .file span use reference loaded children => .file span use reference loaded children

/-- The nodes with other content in the blocks that can be replaced. -/
def Node.refillAll (content : String → List Node → List Node) : List Node → List Node
  | [] => []
  | node :: rest => node.refill content :: Node.refillAll content rest

end

/-- Content of blocks that holds no block itself, if the old content holds none. -/
def KeepsPlain (content : String → List Node → List Node) : Prop :=
  ∀ name old, Node.HaveAll .plain old → Node.HaveAll .plain (content name old)

section

variable {content : String → List Node → List Node}

/-! ### One override -/

mutual

theorem mergeInto_plain (entry : Override) : ∀ {node : Node}, node.Has .plain →
    (entry.mergeInto node).1 = node
  | .leaf .., _ => rfl
  | .branch span label children, has => by
      have inside := mergeIntoAll_plain entry has.2
      cases label
      case namedBlock name mode => exact absurd rfl (has.1 name mode)
      all_goals
        unfold Override.mergeInto
        simp [inside]
  | .file .., has => absurd has Shape.fileless_plain.not_has_file

theorem mergeIntoAll_plain (entry : Override) : ∀ {nodes : List Node}, Node.HaveAll .plain nodes →
    (entry.mergeIntoAll nodes).1 = nodes
  | [], _ => rfl
  | node :: rest, has => by
      unfold Override.mergeIntoAll
      simp [mergeInto_plain entry has.1, mergeIntoAll_plain entry has.2]

end

mutual

theorem refill_plain : ∀ {node : Node}, node.Has .plain → node.refill content = node
  | .leaf .., _ => rfl
  | .branch span label children, has => by
      have inside := refillAll_plain has.2
      cases label
      case namedBlock name mode => exact absurd rfl (has.1 name mode)
      all_goals
        unfold Node.refill
        simp [inside]
  | .file .., has => absurd has Shape.fileless_plain.not_has_file

theorem refillAll_plain : ∀ {nodes : List Node}, Node.HaveAll .plain nodes →
    Node.refillAll content nodes = nodes
  | [], _ => rfl
  | node :: rest, has => by
      unfold Node.refillAll
      simp [refill_plain has.1, refillAll_plain has.2]

end

/-- The content of blocks when an override is put over that of the blocks of its name. -/
def withOverride (content : String → List Node → List Node) (entry : Override) (name : String)
    (old : List Node) : List Node :=
  if name = entry.name then mergeNodes entry.mode (content name old) entry.nodes
  else content name old

mutual

theorem mergeInto_refill (keeps : KeepsPlain content) (entry : Override) : ∀ {node : Node},
    node.HasFlatBlocks →
    (entry.mergeInto (node.refill content)).1 = node.refill (withOverride content entry)
  | .leaf .., _ => rfl
  | .branch span label children, flat => by
      cases label
      case namedBlock name mode =>
        have plain : Node.HaveAll .plain children := flat
        cases mode
        case replace =>
          have kept := mergeIntoAll_plain entry (keeps name children plain)
          unfold Node.refill Override.mergeInto withOverride
          by_cases same : name = entry.name
          · simp [same]
          · simp [same, kept]
        all_goals
          unfold Node.refill Override.mergeInto
          simp [refillAll_plain plain, mergeIntoAll_plain entry plain]
      all_goals
        unfold Node.refill Override.mergeInto
        simp [mergeIntoAll_refillAll keeps entry flat]
  | .file .., flat => flat.elim

theorem mergeIntoAll_refillAll (keeps : KeepsPlain content) (entry : Override) :
    ∀ {nodes : List Node}, Node.HaveFlatBlocks nodes →
    (entry.mergeIntoAll (Node.refillAll content nodes)).1 =
      Node.refillAll (withOverride content entry) nodes
  | [], _ => rfl
  | node :: rest, flat => by
      unfold Node.refillAll Override.mergeIntoAll
      simp [mergeInto_refill keeps entry flat.1, mergeIntoAll_refillAll keeps entry flat.2]

end

/-! ### All overrides of an extension -/

theorem KeepsPlain.withOverride (keeps : KeepsPlain content) {entry : Override}
    (plain : Node.HaveAll .plain entry.nodes) : KeepsPlain (withOverride content entry) := by
  intro name old plainOld
  unfold Offside.withOverride
  split
  · exact Node.haveAll_mergeNodes _ (keeps name old plainOld) plain
  · exact keeps name old plainOld

theorem mergeIntoAll_append (entry : Override) (left right : List Node) :
    (entry.mergeIntoAll (left ++ right)).1 =
      (entry.mergeIntoAll left).1 ++ (entry.mergeIntoAll right).1 := by
  induction left with
  | nil => simp [Override.mergeIntoAll]
  | cons node rest ih => simp [Override.mergeIntoAll, ih]

theorem exists_applyOverrides_eq {overrides : List Override} {front nodes : List Node}
    (plain : ∀ entry ∈ overrides, Node.HaveAll .plain entry.nodes)
    (frontPlain : Node.HaveAll .plain front) (flat : Node.HaveFlatBlocks nodes)
    (keeps : KeepsPlain content) (state : LinkState) :
    ∃ after, applyOverrides overrides (front ++ Node.refillAll content nodes) state =
      .ok (front ++ Node.refillAll (overrides.foldl withOverride content) nodes) after := by
  induction overrides generalizing content state with
  | nil => exact ⟨state, rfl⟩
  | cons entry rest ih =>
      rcases List.forall_mem_cons.mp plain with ⟨entryPlain, restPlain⟩
      have merged : (entry.mergeIntoAll (front ++ Node.refillAll content nodes)).1 =
          front ++ Node.refillAll (withOverride content entry) nodes := by
        rw [mergeIntoAll_append, mergeIntoAll_plain entry frontPlain,
          mergeIntoAll_refillAll keeps entry flat]
      simp only [applyOverrides, merged]
      exact ih restPlain (keeps.withOverride entryPlain) _

end

theorem foldl_withOverride (overrides : List Override) (content : String → List Node → List Node)
    (name : String) (old : List Node) :
    overrides.foldl withOverride content name old =
      (overrides.filter fun entry => entry.name = name).foldl
        (fun old entry => mergeNodes entry.mode old entry.nodes) (content name old) := by
  induction overrides generalizing content with
  | nil => rfl
  | cons entry rest ih =>
      by_cases same : entry.name = name
      · simp [ih, same, withOverride]
      · simp [ih, same, withOverride, Ne.symm same]

/-! ### What an extension brings in -/

namespace RootBlock

/-- The override that a block is. -/
def override (block : RootBlock) : Override :=
  ⟨block.name, block.mode, block.nodes⟩

theorem applyTo_eq (old : List Node) (block : RootBlock) :
    block.applyTo old = mergeNodes block.mode old block.nodes := by
  unfold applyTo mergeNodes
  cases block.mode <;> rfl

end RootBlock

mutual

theorem overridesIn_plain (active : List String) : ∀ {node : Node}, node.Has .plain →
    overridesIn active node = []
  | .leaf .., _ => rfl
  | .branch span label children, has => by
      have inside := overridesInAll_plain active has.2
      cases label
      case namedBlock name mode => exact absurd rfl (has.1 name mode)
      all_goals
        unfold overridesIn
        exact inside
  | .file .., has => absurd has Shape.fileless_plain.not_has_file

theorem overridesInAll_plain (active : List String) : ∀ {nodes : List Node},
    Node.HaveAll .plain nodes → overridesInAll active nodes = []
  | [], _ => rfl
  | node :: rest, has => by
      unfold overridesInAll
      simp [overridesIn_plain active has.1, overridesInAll_plain active has.2]

end

namespace Node

/-- The item that a node stands for at the top level of an extending template. -/
def rootItem (node : Node) : RootItem :=
  match node.rootBlock? with
  | some block => .block block
  | none => .mixin node

variable {node : Node}

theorem rootItems_eq (fits : node.FitsRoot) (state : LinkState) :
    rootItems node state = .ok [node.rootItem] state := by
  rcases fits.kind with declares | isBlock
  · cases node with
    | leaf span content =>
        cases content <;> simp [isDeclaration] at declares
        simp only [rootItems, declares]
        rfl
    | branch span label children =>
        cases label <;> simp [isDeclaration] at declares
        simp only [rootItems, declares]
        rfl
    | file => simp [isDeclaration] at declares
  · cases node with
    | leaf span content => simp [rootBlock?] at isBlock
    | branch span label children =>
        cases label <;> simp [rootBlock?] at isBlock
        rfl
    | file => simp [rootBlock?] at isBlock

theorem FitsRoot.rootItem_of_isDeclaration (fits : node.FitsRoot)
    (declares : node.isDeclaration = true) : node.rootItem = .mixin node := by
  cases node with
  | branch span label children =>
      cases label <;> simp [isDeclaration] at declares
      rfl
  | _ => rfl

theorem FitsRoot.exists_rootBlock?_of_not (fits : node.FitsRoot)
    (noDeclaration : node.isDeclaration = false) : ∃ block, node.rootBlock? = some block := by
  rcases fits.kind with declares | isBlock
  · simp [declares] at noDeclaration
  · exact Option.isSome_iff_exists.mp isBlock

theorem FitsRoot.has_whole (fits : node.FitsRoot) : node.Has .whole := by
  have inside : HaveAll .whole (node.children?.getD []) :=
    fits.plain.mono (fun _ _ => trivial) fun _ _ => False.elim
  cases node with
  | leaf => trivial
  | branch span label children => exact ⟨trivial, inside⟩
  | file =>
      rcases fits.kind with declares | isBlock
      · simp [isDeclaration] at declares
      · simp [rootBlock?] at isBlock

end Node

theorem rootItemsOfAll_eq {nodes : List Node} (fits : ∀ node ∈ nodes, node.FitsRoot)
    (state : LinkState) : rootItemsOfAll nodes state = .ok (nodes.map Node.rootItem) state := by
  induction nodes with
  | nil => rfl
  | cons node rest ih =>
      rcases List.forall_mem_cons.mp fits with ⟨first, others⟩
      unfold rootItemsOfAll
      exact (bind_of_ok (Node.rootItems_eq first state)).trans (bind_of_ok (ih others))

namespace Extension

theorem filterMap_block? (extension : Extension) :
    (extension.nodes.map Node.rootItem).filterMap RootItem.block? = extension.blocks := by
  have same : RootItem.block? ∘ Node.rootItem = Node.rootBlock? := by
    funext node
    simp only [Function.comp_apply, Node.rootItem]
    cases node.rootBlock? <;> rfl
  rw [List.filterMap_map, same, blocks]

theorem filterMap_mixin? (extension : Extension) :
    (extension.nodes.map Node.rootItem).filterMap RootItem.mixin? = extension.declarations := by
  have split (nodes : List Node) (fits : ∀ node ∈ nodes, node.FitsRoot) :
      (nodes.map Node.rootItem).filterMap RootItem.mixin? = nodes.filter Node.isDeclaration := by
    induction nodes with
    | nil => rfl
    | cons node rest ih =>
        rcases List.forall_mem_cons.mp fits with ⟨first, others⟩
        cases declares : node.isDeclaration with
        | true =>
            have item : node.rootItem = .mixin node := first.rootItem_of_isDeclaration declares
            simp [item, declares, RootItem.mixin?, ih others]
        | false =>
            rcases first.exists_rootBlock?_of_not declares with ⟨block, found⟩
            have item : node.rootItem = .block block := by simp [Node.rootItem, found]
            have none : node.rootItem.mixin? = none := by rw [item, RootItem.mixin?]
            rw [List.map_cons, List.filterMap_cons_none none, ih others]
            simp [declares]
  exact split extension.nodes extension.fits

theorem plain_of_mem_blocks {extension : Extension} {block : RootBlock}
    (member : block ∈ extension.blocks) : Node.HaveAll .plain block.nodes := by
  rcases List.mem_filterMap.mp member with ⟨node, among, isBlock⟩
  have plain := (extension.fits node among).plain
  cases node with
  | branch span label children =>
      cases label <;> cases isBlock
      exact plain
  | _ => cases isBlock

theorem plain_declarations (extension : Extension) :
    Node.HaveAll .plain extension.declarations := by
  apply Node.haveAll_iff_every.mpr
  intro node member
  rcases List.mem_filter.mp member with ⟨among, declares⟩
  have inside := (extension.fits node among).plain
  cases node with
  | leaf => trivial
  | branch span label children =>
      refine ⟨?_, inside⟩
      rintro name mode rfl
      simp [Node.isDeclaration] at declares
  | file => simp [Node.isDeclaration] at declares

theorem rootOverrides_eq (extension : Extension) :
    rootOverrides (extension.nodes.map Node.rootItem) =
      extension.blocks.map RootBlock.override := by
  have blocks : extension.blocks.flatMap (fun block =>
      ⟨block.name, block.mode, block.nodes⟩ :: overridesInAll [block.name] block.nodes) =
      extension.blocks.map RootBlock.override := by
    rw [List.map_eq_flatMap, List.flatMap_def, List.flatMap_def]
    congr 1
    apply List.map_congr_left
    intro block member
    rw [overridesInAll_plain _ (plain_of_mem_blocks member)]
    rfl
  have mixins : extension.declarations.flatMap (fun mixin =>
      overridesInAll [] (mixin.children?.getD [])) = [] := by
    rw [List.flatMap_eq_nil_iff]
    intro node member
    exact overridesInAll_plain [] (extension.fits node (List.mem_filter.mp member).1).plain
  rw [rootOverrides, filterMap_block?, filterMap_mixin?, blocks, mixins, List.append_nil]

end Extension

/-! ### The blocks that can be replaced -/

mutual

theorem not_mem_walk_of_plain {span : Span} {name : String} {mode : BlockMode}
    {children : List Node} : ∀ {node : Node}, node.Has .plain →
    .branch span (.namedBlock name mode) children ∉ node.walk
  | .leaf .., _ => by simp [Node.walk]
  | .branch _ label inside, has => by
      simp only [Node.walk, List.mem_cons, not_or]
      refine ⟨?_, not_mem_walkAll_of_plain has.2⟩
      intro same
      cases same
      exact has.1 name mode rfl
  | .file .., has => absurd has Shape.fileless_plain.not_has_file

theorem not_mem_walkAll_of_plain {span : Span} {name : String} {mode : BlockMode}
    {children : List Node} : ∀ {nodes : List Node}, Node.HaveAll .plain nodes →
    .branch span (.namedBlock name mode) children ∉ Node.walkAll nodes
  | [], _ => by simp [Node.walkAll]
  | _ :: _, has => by
      simp only [Node.walkAll, List.mem_append, not_or]
      exact ⟨not_mem_walk_of_plain has.1, not_mem_walkAll_of_plain has.2⟩

end

mutual

theorem exists_mem_walk_refill (content : String → List Node → List Node) {name : String}
    {span : Span} {children : List Node} : ∀ {node : Node}, node.HasFlatBlocks →
    .branch span (.namedBlock name .replace) children ∈ node.walk →
    ∃ others, .branch span (.namedBlock name .replace) others ∈ (node.refill content).walk
  | .leaf .., _, member => by simp [Node.walk] at member
  | .branch other label inside, flat, member => by
      simp only [Node.walk, List.mem_cons] at member
      cases label
      case namedBlock found mode =>
        have plain : Node.HaveAll .plain inside := flat
        rcases member with same | member
        · cases same
          exact ⟨content name children, by simp [Node.refill, Node.walk]⟩
        · exact absurd member (not_mem_walkAll_of_plain plain)
      all_goals
        rcases member with same | member
        · cases same
        · rcases exists_mem_walkAll_refillAll content flat member with ⟨others, kept⟩
          exact ⟨others, by simp [Node.refill, Node.walk, kept]⟩
  | .file .., flat, _ => flat.elim

theorem exists_mem_walkAll_refillAll (content : String → List Node → List Node) {name : String}
    {span : Span} {children : List Node} : ∀ {nodes : List Node}, Node.HaveFlatBlocks nodes →
    .branch span (.namedBlock name .replace) children ∈ Node.walkAll nodes →
    ∃ others, .branch span (.namedBlock name .replace) others ∈
      Node.walkAll (Node.refillAll content nodes)
  | [], _, member => by simp [Node.walkAll] at member
  | _ :: _, flat, member => by
      rcases List.mem_append.mp member with inFirst | inRest
      · rcases exists_mem_walk_refill content flat.1 inFirst with ⟨others, kept⟩
        exact ⟨others, List.mem_append_left _ kept⟩
      · rcases exists_mem_walkAll_refillAll content flat.2 inRest with ⟨others, kept⟩
        exact ⟨others, List.mem_append_right _ kept⟩

end

theorem walkAll_append (left right : List Node) :
    Node.walkAll (left ++ right) = Node.walkAll left ++ Node.walkAll right := by
  induction left with
  | nil => rfl
  | cons node rest ih => simp [Node.walkAll, ih]

theorem mem_blockNames_of_replaceable {content : String → List Node → List Node}
    {base : Document} {name : String} (front : List Node)
    (flat : Node.HaveFlatBlocks base.nodes) (replaceable : base.replaceable name) :
    name ∈ blockNames (front ++ Node.refillAll content base.nodes) := by
  rcases replaceable with ⟨span, children, member⟩
  rcases exists_mem_walkAll_refillAll content flat member with ⟨others, kept⟩
  rw [blockNames, List.mem_filterMap, walkAll_append]
  exact ⟨_, List.mem_append_right _ kept, rfl⟩

/-! ### The chain -/

section

variable {base : Document}

/-- All blocks of an extension have a block of the base to go to. -/
def Extension.Targets (base : Document) (extension : Extension) : Prop :=
  ∀ block ∈ extension.blocks, base.replaceable block.name

mutual

theorem Node.HasFlatBlocks.has_whole : ∀ {node : Node}, node.HasFlatBlocks → node.Has .whole
  | .leaf .., _ => trivial
  | .branch _ label children, flat => by
      refine ⟨trivial, ?_⟩
      cases label
      case namedBlock name mode =>
        have plain : Node.HaveAll .plain children := flat
        exact plain.mono (fun _ _ => trivial) fun _ _ => False.elim
      all_goals exact Node.HaveFlatBlocks.has_whole flat
  | .file .., flat => flat.elim

theorem Node.HaveFlatBlocks.has_whole : ∀ {nodes : List Node}, Node.HaveFlatBlocks nodes →
    Node.HaveAll .whole nodes
  | [], _ => trivial
  | _ :: _, flat => ⟨flat.1.has_whole, flat.2.has_whole⟩

end

mutual

theorem refill_self : ∀ {node : Node}, node.HasFlatBlocks →
    node.refill (fun _ old => old) = node
  | .leaf .., _ => rfl
  | .branch _ label children, flat => by
      cases label
      case namedBlock name mode =>
        cases mode
        case replace => rfl
        all_goals
          unfold Node.refill
          simp [refillAll_plain (show Node.HaveAll .plain children from flat)]
      all_goals
        unfold Node.refill
        simp [refillAll_self flat]
  | .file .., flat => flat.elim

theorem refillAll_self : ∀ {nodes : List Node}, Node.HaveFlatBlocks nodes →
    Node.refillAll (fun _ old => old) nodes = nodes
  | [], _ => rfl
  | _ :: _, flat => by
      unfold Node.refillAll
      rw [refill_self flat.1, refillAll_self flat.2]

end

theorem exists_inheritFrom_eq {content : String → List Node → List Node}
    (flat : Node.HaveFlatBlocks base.nodes) (keeps : KeepsPlain content) {front : List Node}
    (frontPlain : Node.HaveAll .plain front) {extension : Extension}
    (targets : extension.Targets base) (root : Span) (state : LinkState) :
    ∃ after, inheritFrom (extension.nodes.map Node.rootItem)
      ⟨root, front ++ Node.refillAll content base.nodes⟩ state =
      .ok ⟨root, extension.declarations ++ (front ++ Node.refillAll
        ((extension.blocks.map RootBlock.override).foldl withOverride content) base.nodes)⟩
        after := by
  have overridesPlain : ∀ entry ∈ extension.blocks.map RootBlock.override,
      Node.HaveAll .plain entry.nodes := by
    intro entry member
    rcases List.mem_map.mp member with ⟨block, among, rfl⟩
    exact Extension.plain_of_mem_blocks among
  have noMissing : extension.blocks.find? (fun block =>
      !(blockNames (front ++ Node.refillAll content base.nodes)).contains block.name) = none := by
    apply List.find?_eq_none.mpr
    intro block member
    simpa using mem_blockNames_of_replaceable front flat (targets block member)
  rcases exists_applyOverrides_eq overridesPlain frontPlain flat keeps state with ⟨after, applied⟩
  refine ⟨after, ?_⟩
  simp only [inheritFrom, extension.filterMap_block?, noMissing, extension.rootOverrides_eq,
    extension.filterMap_mixin?]
  exact bind_of_ok applied

theorem keepsPlain_inheritedContent (extensions : List Extension) :
    KeepsPlain (inheritedContent extensions) := by
  intro name old plain
  have blocksPlain : ∀ block ∈ extensions.flatMap (Extension.blocksNamed name),
      Node.HaveAll .plain block.nodes := by
    intro block member
    rcases List.mem_flatMap.mp member with ⟨extension, _, among⟩
    exact Extension.plain_of_mem_blocks (List.mem_filter.mp among).1
  unfold inheritedContent
  generalize extensions.flatMap (Extension.blocksNamed name) = blocks at blocksPlain
  induction blocks generalizing old with
  | nil => exact plain
  | cons block rest ih =>
      rcases List.forall_mem_cons.mp blocksPlain with ⟨first, others⟩
      apply ih _ _ others
      rw [RootBlock.applyTo_eq]
      exact Node.haveAll_mergeNodes _ plain first

theorem plain_flatMap_declarations (extensions : List Extension) :
    Node.HaveAll .plain (extensions.flatMap Extension.declarations) := by
  apply Node.haveAll_iff_every.mpr
  intro node member
  rcases List.mem_flatMap.mp member with ⟨extension, _, among⟩
  exact Node.haveAll_iff_every.mp extension.plain_declarations node among

theorem inheritedContent_nil : inheritedContent [] = fun _ old => old := rfl

theorem inheritedContent_concat (extensions : List Extension) (extension : Extension) :
    inheritedContent (extensions ++ [extension]) =
      (extension.blocks.map RootBlock.override).foldl withOverride
        (inheritedContent extensions) := by
  funext name old
  have applied : RootBlock.applyTo = fun old block => mergeNodes block.mode old block.nodes := by
    funext old block
    exact RootBlock.applyTo_eq old block
  rw [foldl_withOverride, List.filter_map, List.foldl_map]
  simp only [inheritedContent, List.flatMap_append, List.foldl_append, List.flatMap_cons,
    List.flatMap_nil, List.append_nil, applied]
  rfl

theorem exists_linkNodes_eq (flat : Node.HaveFlatBlocks base.nodes) {extensions : List Extension}
    (targets : ∀ extension ∈ extensions, extension.Targets base) (state : LinkState) :
    ∃ inherits after, linkNodes (Extension.chain base extensions).span
      (Extension.chain base extensions).nodes state =
      .ok ⟨⟨base.span, extensions.reverse.flatMap Extension.declarations ++
        Node.refillAll (inheritedContent extensions) base.nodes⟩, inherits⟩ after := by
  induction extensions using List.reverseRecOn generalizing state with
  | nil =>
      refine ⟨false, state, ?_⟩
      rw [inheritedContent_nil, refillAll_self flat]
      exact linkNodes_eq Shape.fileless_whole.filtered flat.has_whole state
  | append_singleton older extension ih =>
      have ofOlder : ∀ other ∈ older, other.Targets base := by
        intro other member
        exact targets other (List.mem_append_left _ member)
      have fits : Node.HaveAll .whole extension.nodes := by
        apply Node.haveAll_iff_every.mpr
        intro node member
        exact (extension.fits node member).has_whole
      have frontPlain : Node.HaveAll .plain (older.reverse.flatMap Extension.declarations) :=
        plain_flatMap_declarations _
      let noted := { state with
        events := state.events.push (.ancestorEntered extension.reference.path) }
      rcases ih ofOlder noted with ⟨inherits, middle, linked⟩
      rcases exists_inheritFrom_eq flat (keepsPlain_inheritedContent older) frontPlain
        (targets extension (by simp)) base.span middle with ⟨after, inherited⟩
      refine ⟨true, after, ?_⟩
      simp only [Extension.chain, List.foldl_append, List.foldl_cons, List.foldl_nil,
        Extension.document, linkNodes] at linked ⊢
      refine (bind_of_ok (forbidInheritance_eq fits state)).trans ?_
      refine (bind_of_ok (includeAllFiles_eq Shape.fileless_whole.filtered fits state)).trans ?_
      refine (bind_of_ok (rootItemsOfAll_eq extension.fits state)).trans ?_
      have noting : Linking.note (.ancestorEntered extension.reference.path) state =
          .ok () noted := rfl
      refine (bind_of_ok noting).trans ?_
      refine (bind_of_ok linked).trans ?_
      refine (bind_of_ok inherited).trans ?_
      rw [inheritedContent_concat, List.reverse_append, List.reverse_singleton,
        List.singleton_append, List.flatMap_cons, List.append_assoc]
      rfl

/-! ### Dissolving the blocks -/

mutual

theorem hasFlatBlocks_of_plain : ∀ {node : Node}, node.Has .plain → node.HasFlatBlocks
  | .leaf .., _ => trivial
  | .branch _ label children, has => by
      cases label
      case namedBlock name mode => exact has.2
      all_goals exact haveFlatBlocks_of_plain has.2
  | .file .., has => absurd has Shape.fileless_plain.not_has_file

theorem haveFlatBlocks_of_plain : ∀ {nodes : List Node}, Node.HaveAll .plain nodes →
    Node.HaveFlatBlocks nodes
  | [], _ => trivial
  | _ :: _, has => ⟨hasFlatBlocks_of_plain has.1, haveFlatBlocks_of_plain has.2⟩

end

mutual

theorem dissolveBlocks_refill {content : String → List Node → List Node}
    (keeps : KeepsPlain content) : ∀ {node : Node}, node.HasFlatBlocks →
    dissolveBlocks (node.refill content) = node.fill content
  | .leaf .., _ => rfl
  | .branch _ label children, flat => by
      cases label
      case namedBlock name mode =>
        have plain : Node.HaveAll .plain children := flat
        cases mode
        case replace =>
          unfold Node.refill Node.fill dissolveBlocks
          exact dissolveAllBlocks_eq Shape.blockless_plain
            (keeps name children plain)
        all_goals
          unfold Node.refill Node.fill dissolveBlocks
          exact dissolveAllBlocks_refillAll keeps (haveFlatBlocks_of_plain plain)
      all_goals
        unfold Node.refill Node.fill dissolveBlocks
        rw [dissolveAllBlocks_refillAll keeps flat]
  | .file .., flat => flat.elim

theorem dissolveAllBlocks_refillAll {content : String → List Node → List Node}
    (keeps : KeepsPlain content) : ∀ {nodes : List Node}, Node.HaveFlatBlocks nodes →
    dissolveAllBlocks (Node.refillAll content nodes) = Node.fillAll content nodes
  | [], _ => rfl
  | _ :: _, flat => by
      unfold Node.refillAll Node.fillAll dissolveAllBlocks
      rw [dissolveBlocks_refill keeps flat.1, dissolveAllBlocks_refillAll keeps flat.2]

end

theorem dissolveAllBlocks_append (left right : List Node) :
    dissolveAllBlocks (left ++ right) = dissolveAllBlocks left ++ dissolveAllBlocks right := by
  induction left with
  | nil => rfl
  | cons node rest ih => simp [dissolveAllBlocks, ih]

theorem outcome_link_eq (flat : Node.HaveFlatBlocks base.nodes) {extensions : List Extension}
    (targets : ∀ extension ∈ extensions, extension.Targets base) (events : Array Event) :
    outcome (link (Extension.chain base extensions) events) =
      .ok ⟨base.span, extensions.reverse.flatMap Extension.declarations ++
        Node.fillAll (inheritedContent extensions) base.nodes⟩ := by
  have frontPlain : Node.HaveAll .plain (extensions.reverse.flatMap Extension.declarations) :=
    plain_flatMap_declarations _
  have dissolved : dissolveAllBlocks (extensions.reverse.flatMap Extension.declarations ++
      Node.refillAll (inheritedContent extensions) base.nodes) =
      extensions.reverse.flatMap Extension.declarations ++
        Node.fillAll (inheritedContent extensions) base.nodes := by
    rw [dissolveAllBlocks_append,
      dissolveAllBlocks_eq Shape.blockless_plain frontPlain,
      dissolveAllBlocks_refillAll (keepsPlain_inheritedContent extensions) flat]
  rcases exists_linkNodes_eq flat targets { events := events } with ⟨inherits, after, linked⟩
  have done : linkDocument (Extension.chain base extensions) { events := events } =
      .ok ⟨base.span, extensions.reverse.flatMap Extension.declarations ++
        Node.fillAll (inheritedContent extensions) base.nodes⟩ after := by
    rw [← dissolved]
    exact bind_of_ok linked
  simp only [link, done]
  rfl

/-! ### Blocks in another order -/

theorem inheritedContent_congr {extensions others : List Extension}
    (same : List.Forall₂ Extension.SameBlocks extensions others) :
    inheritedContent extensions = inheritedContent others := by
  funext name old
  have blocks : extensions.flatMap (Extension.blocksNamed name) =
      others.flatMap (Extension.blocksNamed name) := by
    induction same with
    | nil => rfl
    | cons first _ ih => simp only [List.flatMap_cons, first.blocks name, ih]
  rw [inheritedContent, blocks]
  rfl

theorem declarations_congr {extensions others : List Extension}
    (same : List.Forall₂ Extension.SameBlocks extensions others) :
    extensions.reverse.flatMap Extension.declarations =
      others.reverse.flatMap Extension.declarations := by
  induction same with
  | nil => rfl
  | cons first _ ih =>
      simp only [List.reverse_cons, List.flatMap_append, List.flatMap_cons, List.flatMap_nil,
        List.append_nil, first.declarations, ih]

theorem targets_congr {extensions others : List Extension}
    (same : List.Forall₂ Extension.SameBlocks extensions others)
    (targets : ∀ extension ∈ extensions, extension.Targets base) :
    ∀ extension ∈ others, extension.Targets base := by
  induction same with
  | nil => exact targets
  | @cons first second _ _ blocks _ ih =>
      rcases List.forall_mem_cons.mp targets with ⟨firstTargets, restTargets⟩
      refine List.forall_mem_cons.mpr ⟨?_, ih restTargets⟩
      intro block member
      have named : block ∈ second.blocksNamed block.name := by
        simpa [Extension.blocksNamed] using member
      rw [← blocks.blocks block.name] at named
      exact firstTargets block (List.mem_filter.mp named).1

end

/-- Linking the last template of a chain gives the declarations of all extensions, those of the
newest one first, and then the base, where each block that can be replaced has the content that the
blocks of its name make of it, one after another. So the order of blocks with different names does
not matter. -/
theorem outcome_link_chain {base : Document} (flat : Node.HaveFlatBlocks base.nodes)
    {extensions : List Extension}
    (targets : ∀ extension ∈ extensions, extension.Targets base) (events : Array Event) :
    outcome (link (Extension.chain base extensions) events) =
        .ok ⟨base.span, extensions.reverse.flatMap Extension.declarations ++
          Node.fillAll (inheritedContent extensions) base.nodes⟩ ∧
      ∀ others, List.Forall₂ Extension.SameBlocks extensions others →
        outcome (link (Extension.chain base others) events) =
          outcome (link (Extension.chain base extensions) events) := by
  refine ⟨outcome_link_eq flat targets events, ?_⟩
  intro others same
  rw [outcome_link_eq flat targets, outcome_link_eq flat (targets_congr same targets),
    inheritedContent_congr same, declarations_congr same]

/-- A text in a document. -/
def textLeaf (value : String) : Node :=
  .leaf {} (.text value false)

/-- A layout with a block inside of a tag and another one behind it. -/
def plainLayout : Document where
  nodes := [
    .branch {} (.tag ⟨"main", false, false, false, []⟩ {})
      [.branch {} (.namedBlock "content" .replace) [textLeaf "old"]],
    .branch {} (.namedBlock "footer" .replace) []]

/-- A layout that adds to the content and declares a mixin. -/
def articleLayout : Extension where
  root := {}
  span := {}
  reference := { span := {}, path := "layout" }
  nodes := [
    .branch {} (.namedBlock "content" .append) [textLeaf "article"],
    .leaf {} (.mixin ⟨"note", none, false, []⟩)]
  fits := by
    simp only [List.forall_mem_cons, List.not_mem_nil, false_imp_iff, implies_true, and_true]
    exact ⟨⟨.inr rfl, by simp [Node.children?, textLeaf]⟩, ⟨.inl rfl, trivial⟩⟩

/-- A page that puts something in front of the content and fills the footer. -/
def articlePage : Extension where
  root := {}
  span := {}
  reference := { span := {}, path := "article" }
  nodes := [
    .branch {} (.namedBlock "footer" .replace) [textLeaf "end"],
    .branch {} (.namedBlock "content" .prepend) [textLeaf "page"]]
  fits := by
    simp only [List.forall_mem_cons, List.not_mem_nil, false_imp_iff, implies_true, and_true]
    exact ⟨⟨.inr rfl, by simp [Node.children?, textLeaf]⟩,
      ⟨.inr rfl, by simp [Node.children?, textLeaf]⟩⟩

theorem outcome_link_articlePage :
    Node.HaveFlatBlocks plainLayout.nodes ∧
      (∀ extension ∈ [articleLayout, articlePage], extension.Targets plainLayout) ∧
      outcome (link (Extension.chain plainLayout [articleLayout, articlePage]) #[]) =
        .ok ⟨{}, [
          .leaf {} (.mixin ⟨"note", none, false, []⟩),
          .branch {} (.tag ⟨"main", false, false, false, []⟩ {})
            [textLeaf "page", textLeaf "old", textLeaf "article"],
          textLeaf "end"]⟩ := by
  have flat : Node.HaveFlatBlocks plainLayout.nodes := by
    simp [plainLayout, Node.HaveFlatBlocks, Node.HasFlatBlocks, textLeaf]
  have content : plainLayout.replaceable "content" := ⟨{}, [textLeaf "old"], by
    simp [plainLayout, Document.walk, Node.walkAll, Node.walk]⟩
  have footer : plainLayout.replaceable "footer" := ⟨{}, [], by
    simp [plainLayout, Document.walk, Node.walkAll, Node.walk]⟩
  have targets : ∀ extension ∈ [articleLayout, articlePage], extension.Targets plainLayout := by
    simp only [List.forall_mem_cons, List.not_mem_nil, false_imp_iff, implies_true, and_true]
    constructor
    · simpa [Extension.Targets, Extension.blocks, articleLayout, Node.rootBlock?] using content
    · simp only [Extension.Targets, Extension.blocks, articlePage, Node.rootBlock?,
        List.filterMap_cons, List.filterMap_nil, List.forall_mem_cons, List.not_mem_nil,
        false_imp_iff, implies_true, and_true]
      exact ⟨footer, content⟩
  exact ⟨flat, targets, (outcome_link_chain flat targets #[]).1⟩

end Offside
