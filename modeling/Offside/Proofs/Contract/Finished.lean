import Offside.Inclusion.Load
import Offside.Inheritance.Link
import Offside.Proofs.Computation
import Offside.Proofs.Contract.Stage
import Offside.Proofs.Filtering.Rewriting

/-!
# What is finished stays as it is

A document that refers to no file and has no named block and no filter has nothing for the stages
between reading and rendering to do: each of them gives it back.
-/

namespace Offside

open Computing

section

variable {options : LoadOptions} {deeper : Loading.Deeper} {origin : Origin}

mutual

theorem loadNode_eq : ∀ {node : Node}, node.Has .finished → ∀ state,
    loadNode options deeper origin node state = .ok node state
  | .leaf .., _, _ => rfl
  | .branch _ _ children, has, state => by
      unfold loadNode
      exact bind_of_ok (loadNodes_eq has.2 state)
  | .file _ use _ _ _, has, _ => by cases use <;> exact has.elim

theorem loadNodes_eq : ∀ {nodes : List Node}, Node.HaveAll .finished nodes → ∀ state,
    loadNodes options deeper origin nodes state = .ok nodes state
  | [], _, _ => rfl
  | _ :: _, has, state => by
      unfold loadNodes
      exact (bind_of_ok (loadNode_eq has.1 state)).trans (bind_of_ok (loadNodes_eq has.2 state))

end

theorem exists_load_eq {document : Document} (finished : Node.HaveAll .finished document.nodes)
    (events : Array Event) :
    ∃ eventsAfter, load document origin options events = .ok document eventsAfter := by
  have loaded : loadNodes options (loadLevels options options.maxDepth) origin document.nodes
      { events := events } = .ok document.nodes { events := events } :=
    loadNodes_eq finished _
  exact ⟨_, by simp only [load, loaded]; rfl⟩

end

section

variable {shape : Shape}

mutual

theorem includeFiles_eq (filtered : shape.Filtered) : ∀ {node : Node}, node.Has shape → ∀ state,
    includeFiles node state = .ok [node] state
  | .leaf .., _, _ => rfl
  | .branch _ _ children, has, state => by
      unfold includeFiles
      exact bind_of_ok (includeAllFiles_eq filtered has.2 state)
  | .file _ use reference _ _, has, _ => by
      cases use with
      | raw filters =>
          cases filters with
          | nil => exact absurd rfl (filtered [] reference has)
          | cons => rfl
      | inclusion | inheritance => exact has.elim

theorem includeAllFiles_eq (filtered : shape.Filtered) : ∀ {nodes : List Node},
    Node.HaveAll shape nodes → ∀ state, includeAllFiles nodes state = .ok nodes state
  | [], _, _ => rfl
  | _ :: _, has, state => by
      unfold includeAllFiles
      exact (bind_of_ok (includeFiles_eq filtered has.1 state)).trans
        (bind_of_ok (includeAllFiles_eq filtered has.2 state))

end

mutual

theorem dissolveBlocks_eq (blockless : shape.Blockless) :
    ∀ {node : Node}, node.Has shape → dissolveBlocks node = [node]
  | .leaf .., _ => rfl
  | .branch _ label children, has => by
      have inside := dissolveAllBlocks_eq blockless has.2
      cases label
      case namedBlock name mode => exact absurd rfl (blockless _ has.1 name mode)
      all_goals
        unfold dissolveBlocks
        rw [inside]
  | .file _ use _ _ _, has => by
      cases use with
      | raw => rfl
      | inclusion | inheritance => exact has.elim

theorem dissolveAllBlocks_eq (blockless : shape.Blockless) :
    ∀ {nodes : List Node}, Node.HaveAll shape nodes → dissolveAllBlocks nodes = nodes
  | [], _ => rfl
  | _ :: _, has => by
      unfold dissolveAllBlocks
      rw [dissolveBlocks_eq blockless has.1, dissolveAllBlocks_eq blockless has.2]
      rfl

end

theorem file_not_mem_walkAll (fileless : shape.Fileless) {nodes : List Node}
    (has : Node.HaveAll shape nodes) (span : Span) (use : FileUse) (reference : Reference)
    (loaded children : List Node) :
    .file span use reference loaded children ∉ Node.walkAll nodes :=
  fun found => fileless.not_has_file
    (Node.every_walkAll (Node.haveAll_iff_every.mp has) _ found)

theorem Node.Has.isInheritance_eq_false {node : Node} (has : node.Has shape) :
    node.isInheritance = false := by
  unfold Node.isInheritance
  split
  · exact has.elim
  · rfl

theorem isInheritance_eq_false_of_haveAll {nodes : List Node} (has : Node.HaveAll shape nodes) :
    ∀ node ∈ Node.walkAll nodes, node.isInheritance = false :=
  fun node found =>
    (Node.every_walkAll (Node.haveAll_iff_every.mp has) node found).isInheritance_eq_false

theorem forbidInheritance_eq_of_free {nodes : List Node}
    (free : ∀ node ∈ Node.walkAll nodes, node.isInheritance = false) (state : LinkState) :
    forbidInheritance nodes state = .ok () state := by
  have none : (Node.walkAll nodes).find? (·.isInheritance) = none := by
    rw [List.find?_eq_none]
    intro node mem
    simp [free node mem]
  simp only [forbidInheritance, none]
  rfl

theorem forbidInheritance_eq {nodes : List Node} (has : Node.HaveAll shape nodes)
    (state : LinkState) : forbidInheritance nodes state = .ok () state :=
  forbidInheritance_eq_of_free (isInheritance_eq_false_of_haveAll has) state

/-- A template that does not extend another one is linked by putting its files in their places. -/
theorem linkNodes_eq_of_includeAllFiles_eq {root : Span} {nodes linked : List Node}
    {state after : LinkState} (free : ∀ node ∈ Node.walkAll nodes, node.isInheritance = false)
    (included : includeAllFiles nodes state = .ok linked after) :
    linkNodes root nodes state = .ok ⟨⟨root, linked⟩, false⟩ after := by
  have all : (do return ⟨⟨root, ← includeAllFiles nodes⟩, false⟩ : Linking Linked) state =
      .ok ⟨⟨root, linked⟩, false⟩ after :=
    bind_of_ok included
  unfold linkNodes
  split
  · exact all
  · simp [Node.walkAll, Node.walk, Node.isInheritance] at free
  · refine (bind_of_ok (forbidInheritance_eq_of_free free state)).trans ?_
    rw [includeAllFiles] at all
    simpa using all

theorem linkNodes_eq (filtered : shape.Filtered) {root : Span} {nodes : List Node}
    (has : Node.HaveAll shape nodes) (state : LinkState) :
    linkNodes root nodes state = .ok ⟨⟨root, nodes⟩, false⟩ state :=
  linkNodes_eq_of_includeAllFiles_eq (isInheritance_eq_false_of_haveAll has)
    (includeAllFiles_eq filtered has state)

end

/-- A document in normal form is linked already. -/
theorem link_eq {document : Document} (normal : Node.HaveAll .normal document.nodes)
    (events : Array Event) :
    link document events =
      .ok document (events.push (.linked 0 0 document.nodes.length)) := by
  have linked : linkDocument document { events := events } =
      .ok document { events := events } := by
    refine (bind_of_ok (linkNodes_eq Shape.filtered_normal normal _)).trans ?_
    simp only [dissolveAllBlocks_eq Shape.blockless_normal normal]
    rfl
  simp only [link, linked]

/-- There is no filter in a finished document. -/
theorem Node.Has.not_needsFiltering {node : Node} (has : node.Has .finished) :
    ¬node.NeedsFiltering := by
  cases node with
  | leaf => exact id
  | branch =>
      rintro ⟨name, attributes, body, same⟩
      exact has.1.2 name attributes body same
  | file _ use => cases use <;> exact has.elim

theorem exists_apply_eq {set : FilterSet} {document : Document}
    (finished : Node.HaveAll .finished document.nodes) (events : Array Event) :
    ∃ eventsAfter, set.apply document events = .ok document eventsAfter := by
  refine ⟨_, FilterSet.apply_eq (Node.every_walkAll_iff.mp ?_) events⟩
  intro node found
  have has := Node.every_walkAll (Node.haveAll_iff_every.mp finished) node found
  exact has.not_needsFiltering

end Offside
