import Offside.Inheritance.Link
import Offside.Proofs.Computation
import Offside.Proofs.Contract.Stage

/-!
# Content that moves between documents

Linking moves nodes about: overrides are merged, yields are given blocks, named blocks are
dissolved, and the mixins of an extending template go in front. None of these makes a new node, so a
property that a node keeps when its children are exchanged for others that have it stays true of all
documents.
-/

namespace Offside

open Computing

namespace Node

/-- A property of nodes that passes to the children where a block is dissolved. -/
class Dissolvable (holds : Node → Prop) : Prop where
  block : ∀ {span children}, holds (.branch span .block children) → Every holds children
  namedBlock : ∀ {span name mode children}, holds (.branch span (.namedBlock name mode) children) →
    Every holds children

/-- A property that a node keeps when its children are exchanged, provided that the new children
have it if the old ones did. -/
class Movable (holds : Node → Prop) : Prop extends Dissolvable holds where
  branch : ∀ {span label children filled}, holds (.branch span label children) →
    (Every holds children → Every holds filled) → holds (.branch span label filled)
  inclusion : ∀ {span body reference loaded children filled},
    holds (.file span (.inclusion body) reference loaded children) →
      (Every holds children → Every holds filled) →
        holds (.file span (.inclusion body) reference loaded filled)

/-- What is left of a property when the named blocks are dissolved. -/
structure Dissolves (holds other : Node → Prop) : Prop where
  leaf : ∀ {span content}, holds (.leaf span content) → other (.leaf span content)
  branch : ∀ {span label children filled}, (∀ name mode, label ≠ .namedBlock name mode) →
    holds (.branch span label children) → (Every holds children → Every other filled) →
      other (.branch span label filled)
  namedBlock : ∀ {span name mode children}, holds (.branch span (.namedBlock name mode) children) →
    Every holds children
  file : ∀ {span use reference loaded children}, (∀ body, use ≠ .inclusion body) →
    holds (.file span use reference loaded children) →
      other (.file span use reference loaded children)
  inclusion : ∀ {span body reference loaded children filled},
    holds (.file span (.inclusion body) reference loaded children) →
      (Every holds children → Every other filled) →
        other (.file span (.inclusion body) reference loaded filled)

section

variable {holds other : Node → Prop}

mutual

theorem every_dissolveBlocks (dissolves : Dissolves holds other) : ∀ {node : Node}, holds node →
    Every other (dissolveBlocks node)
  | .leaf .., found => .single (dissolves.leaf found)
  | .branch _ label children, found => by
      have inside : Every holds children → Every other (dissolveAllBlocks children) :=
        every_dissolveAllBlocks dissolves
      cases label
      case namedBlock =>
        unfold dissolveBlocks
        exact inside (dissolves.namedBlock found)
      all_goals
        unfold dissolveBlocks
        exact .single (dissolves.branch (by simp) found inside)
  | .file _ use _ _ children, found => by
      have inside : Every holds children → Every other (dissolveAllBlocks children) :=
        every_dissolveAllBlocks dissolves
      cases use
      case inclusion =>
        unfold dissolveBlocks
        exact .single (dissolves.inclusion found inside)
      all_goals
        unfold dissolveBlocks
        exact .single (dissolves.file (by simp) found)

theorem every_dissolveAllBlocks (dissolves : Dissolves holds other) : ∀ {nodes : List Node},
    Every holds nodes → Every other (dissolveAllBlocks nodes)
  | [], _ => every_nil
  | _ :: _, found => by
      rw [every_cons] at found
      unfold dissolveAllBlocks
      exact every_append.mpr
        ⟨every_dissolveBlocks dissolves found.1, every_dissolveAllBlocks dissolves found.2⟩

end

theorem Movable.dissolves [Movable holds] : Dissolves holds holds where
  leaf := id
  branch _ := Movable.branch
  namedBlock := Dissolvable.namedBlock
  file _ := id
  inclusion := Movable.inclusion

theorem every_mergeNodes (mode : BlockMode) {ancestor child : List Node}
    (before : Every holds ancestor) (given : Every holds child) :
    Every holds (mergeNodes mode ancestor child) := by
  cases mode <;> simp [mergeNodes, before, given]

mutual

theorem holds_mergeInto [Movable holds] {entry : Override} (given : Every holds entry.nodes) :
    ∀ {node : Node}, holds node → holds (entry.mergeInto node).1
  | .leaf .., found => by
      unfold Override.mergeInto
      exact found
  | .branch _ label children, found => by
      have merged : Every holds children → Every holds (entry.mergeIntoAll children).1 :=
        every_mergeIntoAll given
      cases label
      case namedBlock =>
        unfold Override.mergeInto
        split
        · exact Movable.branch found fun before => every_mergeNodes _ before given
        · exact Movable.branch found merged
      all_goals
        unfold Override.mergeInto
        exact Movable.branch found merged
  | .file _ use _ _ children, found => by
      have merged : Every holds children → Every holds (entry.mergeIntoAll children).1 :=
        every_mergeIntoAll given
      cases use
      case inclusion =>
        unfold Override.mergeInto
        exact Movable.inclusion found merged
      all_goals
        unfold Override.mergeInto
        exact found

theorem every_mergeIntoAll [Movable holds] {entry : Override} (given : Every holds entry.nodes) :
    ∀ {nodes : List Node}, Every holds nodes → Every holds (entry.mergeIntoAll nodes).1
  | [], _ => every_nil
  | _ :: _, found => by
      rw [every_cons] at found
      unfold Override.mergeIntoAll
      exact every_cons.mpr ⟨holds_mergeInto given found.1, every_mergeIntoAll given found.2⟩

end

mutual

theorem every_replaceYields [Movable holds] {given : List Node} (givenHold : Every holds given) :
    ∀ {node : Node}, holds node → Every holds (replaceYields given node).1
  | .leaf _ content, found => by
      cases content
      case yieldSlot =>
        unfold replaceYields
        exact givenHold
      all_goals
        unfold replaceYields
        exact .single found
  | .branch _ _ children, found => by
      unfold replaceYields
      exact .single (Movable.branch found (every_replaceAllYields givenHold))
  | .file _ use _ _ children, found => by
      cases use
      case inclusion =>
        unfold replaceYields
        exact .single (Movable.inclusion found (every_replaceAllYields givenHold))
      all_goals
        unfold replaceYields
        exact .single found

theorem every_replaceAllYields [Movable holds] {given : List Node} (givenHold : Every holds given) :
    ∀ {nodes : List Node}, Every holds nodes → Every holds (replaceAllYields given nodes).1
  | [], _ => every_nil
  | _ :: _, found => by
      rw [every_cons] at found
      unfold replaceAllYields
      exact every_append.mpr
        ⟨every_replaceYields givenHold found.1, every_replaceAllYields givenHold found.2⟩

end

mutual

theorem holds_appendInside? [Movable holds] {given : List Node} (givenHold : Every holds given) :
    ∀ {node : Node}, holds node → ∀ filled ∈ appendInside? given node, holds filled
  | .leaf .., _ => by simp [appendInside?]
  | .branch span label children, found => by
      unfold appendInside?
      split
      · rintro _ ⟨⟩
        exact Movable.branch found (every_appendToLast givenHold)
      · simp
  | .file _ use _ _ children, found => by
      cases use
      case inclusion =>
        unfold appendInside?
        split
        · simp
        · rintro _ ⟨⟩
          exact Movable.inclusion found (every_appendToLast givenHold)
      all_goals simp [appendInside?]

theorem every_appendToLast? [Movable holds] {given : List Node} (givenHold : Every holds given) :
    ∀ {nodes : List Node}, Every holds nodes →
      ∀ filled ∈ appendToLast? given nodes, Every holds filled
  | [], _ => by simp [appendToLast?]
  | node :: rest, found => by
      rw [every_cons] at found
      unfold appendToLast?
      cases later : appendToLast? given rest with
      | some filled =>
          rintro _ ⟨⟩
          exact every_cons.mpr ⟨found.1, every_appendToLast? givenHold found.2 filled later⟩
      | none =>
          intro nodes inside
          rcases Option.map_eq_some_iff.mp inside with ⟨filled, isFilled, rfl⟩
          exact every_cons.mpr ⟨holds_appendInside? givenHold found.1 filled isFilled, found.2⟩

/-- Nodes with others at their end, as deep as possible. -/
theorem every_appendToLast [Movable holds] {given : List Node} (givenHold : Every holds given)
    {nodes : List Node} (found : Every holds nodes) :
    Every holds ((appendToLast? given nodes).getD (nodes ++ given)) := by
  cases appended : appendToLast? given nodes with
  | none => exact every_append.mpr ⟨found, givenHold⟩
  | some filled => exact every_appendToLast? givenHold found filled appended

end

theorem every_applyYield [Movable holds] {given nodes : List Node} (givenHold : Every holds given)
    (found : Every holds nodes) : Every holds (applyYield given nodes) := by
  unfold applyYield
  split
  · exact found
  · split
    · exact every_appendToLast givenHold found
    · rename_i replaced _ _ replacedBy
      simpa only [replacedBy] using every_replaceAllYields givenHold found

end

end Node

/-- The faults that are found at nodes with a property are allowed. Nothing is said about a file
that was never read. -/
def Node.Blames (holds : Node → Prop) (allowed : Diagnostic LinkFault → Prop) : Prop :=
  ∀ ⦃node cause⦄, holds node → (∀ path, cause ≠ .unloadedFile path) →
    allowed ⟨cause, node.span, none⟩

/-- The node that an item at the top level of an extending template was. -/
def RootItem.node : RootItem → Node
  | .mixin node => node
  | .block found => .branch found.span (.namedBlock found.name found.mode) found.nodes

/-- The node of an item at the top level of an extending template has a property. -/
def RootItem.Holds (holds : Node → Prop) (item : RootItem) : Prop :=
  holds item.node

section

variable {holds : Node → Prop} {allowed : Diagnostic LinkFault → Prop}

mutual

theorem satisfies_rootItems [Node.Dissolvable holds] (blames : Node.Blames holds allowed) :
    ∀ {node : Node}, holds node →
      Satisfies (rootItems node) (fun items => ∀ item ∈ items, item.Holds holds) allowed
  | .leaf span content, found => by
      unfold rootItems
      split
      · exact .pure (by simp)
      · split
        · exact .throw (blames found (by simp))
        · exact .pure (by simpa [RootItem.Holds, RootItem.node] using found)
      · split
        · exact .pure (by simp)
        · exact .throw (blames found (by simp))
  | .branch span label children, found => by
      unfold rootItems
      split
      · exact satisfies_rootItemsOfAll blames (Node.Dissolvable.block found)
      · exact .pure (by simpa [RootItem.Holds, RootItem.node] using found)
      · split
        · exact .throw (blames found (by simp))
        · exact .pure (by simpa [RootItem.Holds, RootItem.node] using found)
      · exact .throw (blames found (by simp))
  | .file .., found => by
      unfold rootItems
      exact .throw (blames found (by simp))

theorem satisfies_rootItemsOfAll [Node.Dissolvable holds] (blames : Node.Blames holds allowed) :
    ∀ {nodes : List Node}, Node.Every holds nodes →
      Satisfies (rootItemsOfAll nodes) (fun items => ∀ item ∈ items, item.Holds holds) allowed
  | [], _ => by
      unfold rootItemsOfAll
      exact .pure (by simp)
  | _ :: _, found => by
      rw [Node.every_cons] at found
      unfold rootItemsOfAll
      exact .bind (satisfies_rootItems blames found.1) fun items first =>
        .bind (satisfies_rootItemsOfAll blames found.2) fun others second =>
          .pure (List.forall_mem_append.mpr ⟨first, second⟩)

end

theorem every_rootOverrides {items : List RootItem}
    (blocks : ∀ found, .block found ∈ items → Node.Every holds found.nodes ∧
      ∀ entry ∈ overridesInAll [found.name] found.nodes, Node.Every holds entry.nodes)
    (mixins : ∀ node, .mixin node ∈ items →
      ∀ entry ∈ overridesInAll [] (node.children?.getD []), Node.Every holds entry.nodes) :
    ∀ entry ∈ rootOverrides items, Node.Every holds entry.nodes := by
  intro entry member
  rcases List.mem_append.mp member with member | member <;>
    rcases List.mem_flatMap.mp member with ⟨found, among, inside⟩ <;>
    rcases List.mem_filterMap.mp among with ⟨item, itemMem, itemIs⟩ <;>
    cases item <;> cases itemIs
  · rcases List.mem_cons.mp inside with rfl | inside
    · exact (blocks found itemMem).1
    · exact (blocks found itemMem).2 entry inside
  · exact mixins found itemMem entry inside

variable [Node.Movable holds]

theorem satisfies_applyOverrides {overrides : List Override} {nodes : List Node}
    (given : ∀ entry ∈ overrides, Node.Every holds entry.nodes) (found : Node.Every holds nodes) :
    Satisfies (applyOverrides overrides nodes) (Node.Every holds) allowed := by
  induction overrides generalizing nodes with
  | nil => exact .pure found
  | cons entry rest ih =>
      rcases List.forall_mem_cons.mp given with ⟨first, others⟩
      exact .bind (.modify _) fun _ _ =>
        ih others (Node.every_mergeIntoAll first found)

theorem satisfies_inheritFrom {items : List RootItem} {ancestor : Document}
    (blames : Node.Blames holds allowed) (itemsHold : ∀ item ∈ items, item.Holds holds)
    (given : ∀ entry ∈ rootOverrides items, Node.Every holds entry.nodes)
    (found : Node.Every holds ancestor.nodes) :
    Satisfies (inheritFrom items ancestor) (fun document => Node.Every holds document.nodes)
      allowed := by
  have mixins : Node.Every holds (items.filterMap RootItem.mixin?) := by
    intro node member
    rcases List.mem_filterMap.mp member with ⟨item, itemMem, itemIs⟩
    cases item <;> cases itemIs
    exact itemsHold _ itemMem
  unfold inheritFrom
  dsimp only
  split
  · rename_i missing isMissing
    rcases List.mem_filterMap.mp (List.mem_of_find?_eq_some isMissing) with ⟨item, itemMem, itemIs⟩
    cases item <;> cases itemIs
    exact .throw (blames (itemsHold _ itemMem) (by simp))
  · exact .bind (satisfies_applyOverrides given found) fun nodes merged =>
      .pure (Node.every_append.mpr ⟨mixins, merged⟩)

theorem satisfies_spliceIncluded {included : Linked} {given : List Node}
    (found : Node.Every holds included.document.nodes) (givenHold : Node.Every holds given) :
    Satisfies (spliceIncluded included given) (Node.Every holds) allowed := by
  have nodes : Node.Every holds
      (if included.inherits then dissolveAllBlocks included.document.nodes
        else included.document.nodes) := by
    split
    · exact Node.every_dissolveAllBlocks Node.Movable.dissolves found
    · exact found
  intro state
  exact Node.every_applyYield givenHold nodes

end

end Offside
