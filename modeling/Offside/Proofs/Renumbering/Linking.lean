import Offside.Inheritance.Link
import Offside.Proofs.Parallel
import Offside.Proofs.Renumbering.Document

/-!
# Linking and line numbers

No part of linking looks at a line number.
-/

namespace Offside

open Computing

variable {line : Nat → Nat}

/-! ### What is seen of a node -/

@[simp]
theorem Leaf.kind_renumber (content : Leaf) : (content.renumber line).kind = content.kind := by
  cases content <;> rfl

@[simp]
theorem Label.kind_renumber (label : Label) : (label.renumber line).kind = label.kind := by
  cases label <;> rfl

@[simp]
theorem FileUse.kind_renumber (use : FileUse) : (use.renumber line).kind = use.kind := by
  cases use <;> rfl

@[simp]
theorem Label.takesContent_renumber (empty : Bool) (label : Label) :
    (label.renumber line).takesContent empty = label.takesContent empty := by
  cases label <;> rfl

namespace Node

@[simp]
theorem isEmpty_renumberAll (nodes : List Node) :
    (renumberAll line nodes).isEmpty = nodes.isEmpty := by
  cases nodes <;> rfl

@[simp]
theorem isBlankText_renumber (node : Node) :
    (node.renumber line).isBlankText = node.isBlankText := by
  cases node with
  | leaf _ content => cases content <;> rfl
  | branch | file => rfl

@[simp]
theorem isInheritance_renumber (node : Node) :
    (node.renumber line).isInheritance = node.isInheritance := by
  cases node with
  | leaf | branch => rfl
  | file _ use => cases use <;> rfl

mutual

theorem walk_renumber : ∀ node : Node, (node.renumber line).walk = renumberAll line node.walk
  | .leaf .. => by simp [walk]
  | .branch _ _ children => by simp [walk, walkAll_renumber children]
  | .file _ use _ _ children => by
      cases use <;> simp [walk, FileUse.renumber, walkAll_renumber children]

theorem walkAll_renumber : ∀ nodes : List Node,
    walkAll (renumberAll line nodes) = renumberAll line (walkAll nodes)
  | [] => rfl
  | node :: rest => by simp [walkAll, node.walk_renumber, walkAll_renumber rest]

end

end Node

/-! ### Overrides -/

def Override.renumber (line : Nat → Nat) (entry : Override) : Override :=
  { entry with nodes := Node.renumberAll line entry.nodes }

mutual

theorem overridesIn_renumber : ∀ (active : List String) (node : Node),
    overridesIn active (node.renumber line) =
      (overridesIn active node).map (Override.renumber line)
  | _, .leaf .. => by simp [overridesIn]
  | active, .branch _ label children => by
      have inside (active : List String) := overridesInAll_renumber active children
      cases label
      case namedBlock name mode =>
        simp only [Node.renumber_branch, Label.renumber, overridesIn]
        split
        · rfl
        · rw [inside, List.map_cons]
          rfl
      all_goals
        simp only [Node.renumber_branch, Label.renumber, overridesIn]
        exact inside active
  | active, .file _ use _ _ children => by
      cases use
      case inclusion =>
        simp only [Node.renumber_file, FileUse.renumber, overridesIn]
        exact overridesInAll_renumber active children
      all_goals simp [FileUse.renumber, overridesIn]

theorem overridesInAll_renumber : ∀ (active : List String) (nodes : List Node),
    overridesInAll active (Node.renumberAll line nodes) =
      (overridesInAll active nodes).map (Override.renumber line)
  | _, [] => by simp [overridesInAll]
  | active, node :: rest => by
      simp [overridesInAll, overridesIn_renumber active node, overridesInAll_renumber active rest]

end

theorem renumberAll_mergeNodes (mode : BlockMode) (ancestor child : List Node) :
    Node.renumberAll line (mergeNodes mode ancestor child) =
      mergeNodes mode (Node.renumberAll line ancestor) (Node.renumberAll line child) := by
  cases mode <;> simp [mergeNodes]

mutual

theorem mergeInto_renumber (entry : Override) : ∀ node : Node,
    (entry.renumber line).mergeInto (node.renumber line) =
      ((entry.mergeInto node).1.renumber line, (entry.mergeInto node).2)
  | .leaf .. => by simp [Override.mergeInto]
  | .branch _ label children => by
      have inside := mergeIntoAll_renumber entry children
      cases label
      case namedBlock name mode =>
        simp only [Node.renumber_branch, Label.renumber, Override.mergeInto, inside]
        have sameName : (entry.renumber line).name = entry.name := rfl
        rw [sameName]
        split
        · simp [Label.renumber, renumberAll_mergeNodes, Override.renumber]
        · rfl
      all_goals
        simp only [Node.renumber_branch, Label.renumber, Override.mergeInto, inside]
  | .file _ use _ _ children => by
      have inside := mergeIntoAll_renumber entry children
      cases use <;> simp [FileUse.renumber, Override.mergeInto, inside]

theorem mergeIntoAll_renumber (entry : Override) : ∀ nodes : List Node,
    (entry.renumber line).mergeIntoAll (Node.renumberAll line nodes) =
      (Node.renumberAll line (entry.mergeIntoAll nodes).1, (entry.mergeIntoAll nodes).2)
  | [] => by simp [Override.mergeIntoAll]
  | node :: rest => by
      simp [Override.mergeIntoAll, mergeInto_renumber entry node,
        mergeIntoAll_renumber entry rest]

end

mutual

theorem dissolveBlocks_renumber : ∀ node : Node,
    dissolveBlocks (node.renumber line) = Node.renumberAll line (dissolveBlocks node)
  | .leaf .. => by simp [dissolveBlocks]
  | .branch _ label children => by
      have inside := dissolveAllBlocks_renumber children
      cases label <;> simp [Label.renumber, dissolveBlocks, inside]
  | .file _ use _ _ children => by
      have inside := dissolveAllBlocks_renumber children
      cases use <;> simp [FileUse.renumber, dissolveBlocks, inside]

theorem dissolveAllBlocks_renumber : ∀ nodes : List Node,
    dissolveAllBlocks (Node.renumberAll line nodes) =
      Node.renumberAll line (dissolveAllBlocks nodes)
  | [] => by simp [dissolveAllBlocks]
  | node :: rest => by
      simp [dissolveAllBlocks, dissolveBlocks_renumber node, dissolveAllBlocks_renumber rest]

end

/-! ### Yields -/

mutual

theorem replaceYields_renumber (given : List Node) : ∀ node : Node,
    replaceYields (Node.renumberAll line given) (node.renumber line) =
      (Node.renumberAll line (replaceYields given node).1, (replaceYields given node).2)
  | .leaf _ content => by
      cases content <;> simp [Leaf.renumber, replaceYields]
  | .branch _ _ children => by
      simp [replaceYields, replaceAllYields_renumber given children]
  | .file _ use _ _ children => by
      have inside := replaceAllYields_renumber given children
      cases use <;> simp [FileUse.renumber, replaceYields, inside]

theorem replaceAllYields_renumber (given : List Node) : ∀ nodes : List Node,
    replaceAllYields (Node.renumberAll line given) (Node.renumberAll line nodes) =
      (Node.renumberAll line (replaceAllYields given nodes).1, (replaceAllYields given nodes).2)
  | [] => by simp [replaceAllYields]
  | node :: rest => by
      simp [replaceAllYields, replaceYields_renumber given node,
        replaceAllYields_renumber given rest]

end

mutual

theorem appendInside?_renumber (given : List Node) : ∀ node : Node,
    appendInside? (Node.renumberAll line given) (node.renumber line) =
      (appendInside? given node).map (Node.renumber line)
  | .leaf .. => by simp [appendInside?]
  | .branch _ label children => by
      have inside := appendToLast?_renumber given children
      simp only [Node.renumber_branch, appendInside?, Label.takesContent_renumber,
        Node.isEmpty_renumberAll, inside]
      split
      · cases appendToLast? given children <;> simp
      · rfl
  | .file _ use _ _ children => by
      have inside := appendToLast?_renumber given children
      cases use
      case inclusion =>
        simp only [Node.renumber_file, FileUse.renumber, appendInside?, Node.isEmpty_renumberAll,
          inside]
        split
        · rfl
        · cases appendToLast? given children <;> simp [FileUse.renumber]
      all_goals simp [FileUse.renumber, appendInside?]

theorem appendToLast?_renumber (given : List Node) : ∀ nodes : List Node,
    appendToLast? (Node.renumberAll line given) (Node.renumberAll line nodes) =
      (appendToLast? given nodes).map (Node.renumberAll line)
  | [] => by simp [appendToLast?]
  | node :: rest => by
      simp only [Node.renumberAll_cons, appendToLast?, appendToLast?_renumber given rest,
        appendInside?_renumber given node]
      cases appendToLast? given rest <;> simp [Function.comp_def]

end

theorem applyYield_renumber (given nodes : List Node) :
    applyYield (Node.renumberAll line given) (Node.renumberAll line nodes) =
      Node.renumberAll line (applyYield given nodes) := by
  unfold applyYield
  rw [Node.isEmpty_renumberAll, replaceAllYields_renumber, appendToLast?_renumber]
  split
  · rfl
  · rcases replaceAllYields given nodes with ⟨replaced, _ | count⟩
    · cases appendToLast? given nodes <;> simp
    · rfl

/-! ### Linking -/

/-- From related states linking gives the same with other line numbers, or fails for the same
reason at the same node. -/
def Linking.Renumbers {α : Type} (line : Nat → Nat) (renumber : α → α) (action other : Linking α) :
    Prop :=
  Parallel (fun _ _ => True) (fun value value' => value' = renumber value)
    (fun fault fault' => fault' = { fault with span := fault.span.renumber line }) action other

namespace Linking.Renumbers

variable {α β : Type} {first : α → α} {last : β → β} {action other : Linking α}
  {next otherNext : α → Linking β}

theorem pure {value value' : α} (same : value' = first value) :
    Renumbers line first (pure value) (pure value') :=
  Parallel.pure same

theorem bind (before : Renumbers line first action other)
    (after : ∀ value, Renumbers line last (next value) (otherNext (first value))) :
    Renumbers line last (action >>= next) (other >>= otherNext) :=
  Parallel.bind_change before after

theorem fail (span : Span) (cause : LinkFault) :
    Renumbers line first (Linking.fail span cause)
      (Linking.fail (span.renumber line) cause) :=
  Parallel.throw rfl

/-- What is counted and noted may differ. -/
theorem modify (change change' : LinkState → LinkState) :
    Renumbers line id (modify change) (modify change') :=
  fun _ _ _ => ⟨rfl, trivial⟩

end Linking.Renumbers

theorem renumbers_forbidInheritance (nodes : List Node) :
    Linking.Renumbers line id (forbidInheritance nodes)
      (forbidInheritance (Node.renumberAll line nodes)) := by
  have sameUse : (·.isInheritance) ∘ Node.renumber line = (·.isInheritance) :=
    funext Node.isInheritance_renumber
  have found : (Node.walkAll (Node.renumberAll line nodes)).find? (·.isInheritance) =
      ((Node.walkAll nodes).find? (·.isInheritance)).map (Node.renumber line) := by
    rw [Node.walkAll_renumber, Node.renumberAll_eq_map, List.find?_map, sameUse]
  unfold forbidInheritance
  rw [found]
  cases (Node.walkAll nodes).find? (·.isInheritance) with
  | none => exact .pure rfl
  | some node =>
      rw [Option.map_some]
      dsimp only
      rw [Node.span_renumber]
      exact .fail _ _

def RootBlock.renumber (line : Nat → Nat) (block : RootBlock) : RootBlock :=
  { block with span := block.span.renumber line, nodes := Node.renumberAll line block.nodes }

def RootItem.renumber (line : Nat → Nat) : RootItem → RootItem
  | .mixin node => .mixin (node.renumber line)
  | .block found => .block (found.renumber line)

mutual

theorem renumbers_rootItems : ∀ node : Node,
    Linking.Renumbers line (List.map (RootItem.renumber line)) (rootItems node)
      (rootItems (node.renumber line))
  | .leaf span content => by
      cases content with
      | comment value buffered =>
          cases buffered with
          | false => exact .pure rfl
          | true => exact .fail _ _
      | mixin head =>
          simp only [Node.renumber_leaf, Leaf.renumber, rootItems]
          have sameRole : (head.renumber line).isCall = head.isCall := rfl
          rw [sameRole]
          split
          · exact .fail _ _
          · exact .pure rfl
      | text value html =>
          simp only [Node.renumber_leaf, Leaf.renumber, rootItems]
          have sameText : (Node.leaf (span.renumber line) (.text value html)).isBlankText =
              (Node.leaf span (.text value html)).isBlankText := rfl
          rw [sameText]
          split
          · exact .pure rfl
          · exact .fail _ _
      | mixinBlock | yieldSlot | code | doctype => exact .fail _ _
  | .branch span label children => by
      cases label with
      | block =>
          simp only [Node.renumber_branch, Label.renumber, rootItems]
          exact renumbers_rootItemsOfAll children
      | namedBlock => exact .pure rfl
      | mixin head body =>
          simp only [Node.renumber_branch, Label.renumber, rootItems]
          have sameRole : (head.renumber line).isCall = head.isCall := rfl
          rw [sameRole]
          split
          · exact .fail _ _
          · exact .pure rfl
      | tag | variableTag | blockComment | filter => exact .fail _ _
  | .file span use _ _ _ => by
      simp only [Node.renumber_file, rootItems, FileUse.kind_renumber]
      exact .fail _ _

theorem renumbers_rootItemsOfAll : ∀ nodes : List Node,
    Linking.Renumbers line (List.map (RootItem.renumber line)) (rootItemsOfAll nodes)
      (rootItemsOfAll (Node.renumberAll line nodes))
  | [] => by
      simp only [Node.renumberAll_nil, rootItemsOfAll]
      exact .pure rfl
  | node :: rest => by
      simp only [Node.renumberAll_cons, rootItemsOfAll]
      exact .bind (renumbers_rootItems node) fun items =>
        .bind (renumbers_rootItemsOfAll rest) fun others => .pure (by simp)

end

theorem renumbers_applyOverrides (overrides : List Override) (nodes : List Node) :
    Linking.Renumbers line (Node.renumberAll line) (applyOverrides overrides nodes)
      (applyOverrides (overrides.map (Override.renumber line)) (Node.renumberAll line nodes)) := by
  induction overrides generalizing nodes with
  | nil => exact .pure rfl
  | cons entry rest ih =>
      simp only [List.map_cons, applyOverrides, mergeIntoAll_renumber]
      exact .bind (.modify _ _) fun _ => ih _

theorem blockNames_renumber (nodes : List Node) :
    blockNames (Node.renumberAll line nodes) = blockNames nodes := by
  unfold blockNames
  rw [Node.walkAll_renumber, Node.renumberAll_eq_map, List.filterMap_map]
  refine congrArg (List.filterMap · _) (funext fun node => ?_)
  cases node with
  | leaf | file => rfl
  | branch _ label => cases label <;> rfl

theorem filterMap_mixin?_renumber (items : List RootItem) :
    (items.map (RootItem.renumber line)).filterMap RootItem.mixin? =
      Node.renumberAll line (items.filterMap RootItem.mixin?) := by
  rw [Node.renumberAll_eq_map, List.filterMap_map, List.map_filterMap]
  refine congrArg (List.filterMap · _) (funext fun item => ?_)
  cases item <;> rfl

theorem filterMap_block?_renumber (items : List RootItem) :
    (items.map (RootItem.renumber line)).filterMap RootItem.block? =
      (items.filterMap RootItem.block?).map (RootBlock.renumber line) := by
  rw [List.filterMap_map, List.map_filterMap]
  refine congrArg (List.filterMap · _) (funext fun item => ?_)
  cases item <;> rfl

theorem children?_renumber (node : Node) :
    (node.renumber line).children?.getD [] =
      Node.renumberAll line (node.children?.getD []) := by
  cases node with
  | leaf | branch => rfl
  | file _ use => cases use <;> rfl

theorem rootOverrides_renumber (items : List RootItem) :
    rootOverrides (items.map (RootItem.renumber line)) =
      (rootOverrides items).map (Override.renumber line) := by
  unfold rootOverrides
  rw [filterMap_block?_renumber, filterMap_mixin?_renumber, List.map_append,
    Node.renumberAll_eq_map, List.flatMap_map, List.flatMap_map, List.map_flatMap,
    List.map_flatMap]
  simp only [children?_renumber, overridesInAll_renumber, List.map_cons]
  simp [RootBlock.renumber, overridesInAll_renumber, Override.renumber]

theorem renumbers_inheritFrom (items : List RootItem) (ancestor : Document) :
    Linking.Renumbers line (Document.renumber line) (inheritFrom items ancestor)
      (inheritFrom (items.map (RootItem.renumber line)) (ancestor.renumber line)) := by
  have missing : ((items.map (RootItem.renumber line)).filterMap RootItem.block?).find?
      (fun block => !(blockNames (ancestor.renumber line).nodes).contains block.name) =
        ((items.filterMap RootItem.block?).find?
          fun block => !(blockNames ancestor.nodes).contains block.name).map
            (RootBlock.renumber line) := by
    rw [filterMap_block?_renumber, List.find?_map, Document.renumber, blockNames_renumber]
    rfl
  unfold inheritFrom
  dsimp only
  rw [missing]
  cases (items.filterMap RootItem.block?).find?
      fun block => !(blockNames ancestor.nodes).contains block.name with
  | some block => exact .fail _ _
  | none =>
      simp only [Option.map_none, rootOverrides_renumber, filterMap_mixin?_renumber]
      refine .bind (renumbers_applyOverrides _ _) fun nodes => .pure ?_
      simp [Document.renumber]

/-- A linked document with other line numbers. -/
def Linked.renumber (line : Nat → Nat) (linked : Linked) : Linked :=
  ⟨linked.document.renumber line, linked.inherits⟩

theorem renumbers_spliceIncluded (included : Linked) (given : List Node) :
    Linking.Renumbers line (Node.renumberAll line) (spliceIncluded included given)
      (spliceIncluded (included.renumber line) (Node.renumberAll line given)) := by
  refine .bind (.modify _ _) fun _ => .pure ?_
  rcases included with ⟨document, _ | _⟩
  · exact applyYield_renumber given document.nodes
  · show applyYield _ (dissolveAllBlocks (Node.renumberAll line document.nodes)) = _
    rw [dissolveAllBlocks_renumber, applyYield_renumber]
    rfl

mutual

theorem renumbers_includeFiles : ∀ node : Node,
    Linking.Renumbers line (Node.renumberAll line) (includeFiles node)
      (includeFiles (node.renumber line))
  | .leaf .. => by
      simp only [Node.renumber_leaf, includeFiles]
      exact .pure rfl
  | .branch _ _ children => by
      simp only [Node.renumber_branch, includeFiles]
      exact .bind (renumbers_includeAllFiles children) fun filled => .pure rfl
  | .file span use reference loaded children => by
      cases use with
      | inclusion body =>
          simp only [Node.renumber_file, FileUse.renumber, includeFiles]
          refine .bind (renumbers_includeAllFiles children) fun given => ?_
          cases known : reference.root with
          | none =>
              simp only [Reference.renumber, known, Option.map_none]
              exact .fail _ _
          | some root =>
              simp only [Reference.renumber, known, Option.map_some]
              exact .bind (renumbers_linkNodes root loaded) fun included =>
                renumbers_spliceIncluded included given
      | raw filters =>
          cases filters with
          | nil =>
              simp only [Node.renumber_file, FileUse.renumber, List.map_nil, includeFiles]
              have sameContents : (reference.renumber line).contents = reference.contents := rfl
              rw [sameContents]
              cases reference.contents with
              | none => exact .fail _ _
              | some contents => exact .pure rfl
          | cons filter rest =>
              simp only [Node.renumber_file, FileUse.renumber, List.map_cons, includeFiles]
              exact .pure rfl
      | inheritance =>
          simp only [Node.renumber_file, FileUse.renumber, includeFiles]
          exact .pure rfl

theorem renumbers_includeAllFiles : ∀ nodes : List Node,
    Linking.Renumbers line (Node.renumberAll line) (includeAllFiles nodes)
      (includeAllFiles (Node.renumberAll line nodes))
  | [] => by
      simp only [Node.renumberAll_nil, includeAllFiles]
      exact .pure rfl
  | node :: rest => by
      simp only [Node.renumberAll_cons, includeAllFiles]
      exact .bind (renumbers_includeFiles node) fun nodes =>
        .bind (renumbers_includeAllFiles rest) fun others => .pure (by simp)

theorem renumbers_linkNodes (root : Span) : ∀ nodes : List Node,
    Linking.Renumbers line (Linked.renumber line) (linkNodes root nodes)
      (linkNodes (root.renumber line) (Node.renumberAll line nodes))
  | [] => by
      simp only [Node.renumberAll_nil, linkNodes]
      exact .pure rfl
  | node :: rest => by
      have plain : Linking.Renumbers line (Linked.renumber line)
          (do
            forbidInheritance (node :: rest)
            let nodes ← includeFiles node
            return ⟨⟨root, nodes ++ (← includeAllFiles rest)⟩, false⟩)
          (do
            forbidInheritance (node.renumber line :: Node.renumberAll line rest)
            let nodes ← includeFiles (node.renumber line)
            return ⟨⟨root.renumber line,
              nodes ++ (← includeAllFiles (Node.renumberAll line rest))⟩, false⟩) :=
        .bind (renumbers_forbidInheritance (node :: rest)) fun _ =>
          .bind (renumbers_includeFiles node) fun nodes =>
            .bind (renumbers_includeAllFiles rest) fun others =>
              .pure (by simp [Linked.renumber, Document.renumber])
      rw [Node.renumberAll_cons]
      cases node with
      | leaf span content => simpa only [Node.renumber_leaf, linkNodes] using plain
      | branch span label children => simpa only [Node.renumber_branch, linkNodes] using plain
      | file span use reference loaded children =>
          cases use with
          | raw filters =>
              simpa only [Node.renumber_file, FileUse.renumber, linkNodes] using plain
          | inclusion body =>
              simpa only [Node.renumber_file, FileUse.renumber, linkNodes] using plain
          | inheritance =>
              simp only [Node.renumber_file, FileUse.renumber, linkNodes]
              refine .bind (renumbers_forbidInheritance rest) fun _ =>
                .bind (renumbers_includeAllFiles rest) fun nodes =>
                  .bind (renumbers_rootItemsOfAll nodes) fun items => ?_
              cases known : reference.root with
              | none =>
                  simp only [Reference.renumber, known, Option.map_none]
                  exact .fail _ _
              | some ancestorRoot =>
                  simp only [Reference.renumber, known, Option.map_some]
                  exact .bind (.modify _ _) fun _ =>
                    .bind (renumbers_linkNodes ancestorRoot loaded) fun ancestor =>
                      .bind (renumbers_inheritFrom items ancestor.document) fun document =>
                        .pure rfl

end

/-- A document with other line numbers is linked to the same document with these line numbers. -/
theorem renumbers_link (line : Nat → Nat) (document : Document) :
    Parallel (fun _ _ => True) (fun linked linked' => linked' = linked.renumber line)
      (fun fault fault' => fault' = { fault with span := fault.span.renumber line })
      (link document) (link (document.renumber line)) := by
  have renumbers : Linking.Renumbers line (Document.renumber line) (linkDocument document)
      (linkDocument (document.renumber line)) := by
    refine .bind (renumbers_linkNodes document.span document.nodes) fun linked => .pure ?_
    simp [Linked.renumber, Document.renumber, dissolveAllBlocks_renumber]
  intro events events' _
  have start : True := trivial
  have done := @renumbers { events := events } { events := events' } start
  unfold link
  revert done
  cases linkDocument document { events := events } <;>
    cases linkDocument (document.renumber line) { events := events' } <;> exact id

end Offside
