import Offside.Proofs.Contract.Linking
import Offside.Proofs.Inheritance.Template

/-!
# What the blocks of an extending template override

A block at the top level of an extending template needs a named block of its name in the linked
ancestor. The mode of that block does not matter for this, although only a block that can be
replaced takes an override. The ancestor is looked at before anything is merged into it.
-/

namespace Offside

open Computing

/-! ### Where an override goes -/

/-- There is a named block in the document. -/
def Document.HasBlock (document : Document) (name : String) (mode : BlockMode) : Prop :=
  ∃ span children, .branch span (.namedBlock name mode) children ∈ document.walk

theorem mem_blockNames {document : Document} {name : String} :
    name ∈ blockNames document.nodes ↔ ∃ mode, document.HasBlock name mode := by
  simp only [blockNames, List.mem_filterMap]
  constructor
  · rintro ⟨node, member, named⟩
    split at named
    · cases named
      exact ⟨_, _, _, member⟩
    · cases named
  · rintro ⟨mode, span, children, member⟩
    exact ⟨_, member, rfl⟩

namespace Override

/-- Whether a node is a block that takes an override. -/
def IsTarget (entry : Override) (node : Node) : Prop :=
  ∃ span children, node = .branch span (.namedBlock entry.name .replace) children

mutual

theorem mergeInto_pos_iff (entry : Override) : ∀ (node : Node),
    0 < (entry.mergeInto node).2 ↔ ∃ found ∈ node.walk, entry.IsTarget found
  | .leaf span content => by simp [mergeInto, Node.walk, IsTarget]
  | .branch span label children => by
      have inside := mergeIntoAll_pos_iff entry children
      cases label
      case namedBlock name mode =>
        unfold mergeInto
        split
        · rename_i same
          rcases same with ⟨rfl, rfl⟩
          simp only [Nat.zero_lt_one, true_iff]
          exact ⟨_, List.mem_cons_self, span, children, rfl⟩
        · rename_i other
          have notTarget : ¬entry.IsTarget (.branch span (.namedBlock name mode) children) := by
            rintro ⟨_, _, ⟨⟩⟩
            exact other ⟨rfl, rfl⟩
          simpa [Node.walk, notTarget] using inside
      all_goals
        unfold mergeInto
        simpa [Node.walk, IsTarget] using inside
  | .file span use reference loaded children => by
      have inside := mergeIntoAll_pos_iff entry children
      cases use
      case inclusion =>
        unfold mergeInto
        simpa [Node.walk, IsTarget] using inside
      all_goals simp [mergeInto, Node.walk, IsTarget]

theorem mergeIntoAll_pos_iff (entry : Override) : ∀ (nodes : List Node),
    0 < (entry.mergeIntoAll nodes).2 ↔ ∃ found ∈ Node.walkAll nodes, entry.IsTarget found
  | [] => by simp [mergeIntoAll, Node.walkAll]
  | node :: rest => by
      unfold mergeIntoAll
      simp only [Node.walkAll, List.mem_append, or_and_right, exists_or,
        ← mergeInto_pos_iff entry node, ← mergeIntoAll_pos_iff entry rest]
      omega

end

/-- An override is merged somewhere exactly if there is a block of its name that can be
replaced. -/
theorem merged_iff (entry : Override) (document : Document) :
    0 < (entry.mergeIntoAll document.nodes).2 ↔ document.replaceable entry.name := by
  rw [mergeIntoAll_pos_iff]
  constructor
  · rintro ⟨_, member, span, children, rfl⟩
    exact ⟨span, children, member⟩
  · rintro ⟨span, children, member⟩
    exact ⟨_, member, span, children, rfl⟩

end Override

/-! ### Templates that are linked on the way -/

/-- The template can be linked. -/
def Document.Links (document : Document) : Prop :=
  ∃ state linked after, linkNodes document.span document.nodes state = .ok linked after

mutual

theorem ensures_includeFiles : ∀ (node : Node) (state : LinkState),
    Ensures (includeFiles node) state fun _ _ => Node.AllIncluded Document.Links node.walk
  | .leaf span content, state => by
      unfold includeFiles
      exact .pure (by simp)
  | .branch span label children, state => by
      unfold includeFiles
      refine .bind (ensures_includeAllFiles children state) fun _ _ inside => .pure ?_
      simpa using inside
  | .file span use reference loaded children, state => by
      cases use with
      | inclusion body =>
          unfold includeFiles
          refine .bind (ensures_includeAllFiles children state) fun given middle inside => ?_
          split
          · exact .throw
          · rename_i root known
            have linked : Ensures (linkNodes root loaded) middle
                fun _ _ => Document.Links ⟨root, loaded⟩ :=
              fun value after done => ⟨middle, value, after, done⟩
            refine .bind linked fun included _ links _ _ _ => ?_
            refine Node.allIncluded_walk_inclusion.mpr ⟨fun other isRoot => ?_, inside⟩
            cases known.symm.trans isRoot
            exact links
      | raw filters => exact fun _ _ _ => Node.allIncluded_walk_file (by simp)
      | inheritance => exact fun _ _ _ => Node.allIncluded_walk_file (by simp)

theorem ensures_includeAllFiles : ∀ (nodes : List Node) (state : LinkState),
    Ensures (includeAllFiles nodes) state fun _ _ =>
      Node.AllIncluded Document.Links (Node.walkAll nodes)
  | [], state => by
      unfold includeAllFiles
      exact .pure (by simp [Node.walkAll])
  | node :: rest, state => by
      unfold includeAllFiles
      exact .bind (ensures_includeFiles node state) fun _ _ first =>
        .bind (ensures_includeAllFiles rest _) fun _ _ others =>
          .pure (Node.allIncluded_append.mpr ⟨first, others⟩)

end

/-! ### Linking -/

theorem ensures_forbidInheritance (nodes : List Node) (state : LinkState) :
    Ensures (forbidInheritance nodes) state
      fun _ _ => ∀ node ∈ Node.walkAll nodes, node.isInheritance = false := by
  have blames : Node.Blames (fun _ => True) fun _ => True := fun _ _ _ _ => trivial
  exact (satisfies_forbidInheritance blames fun _ _ => trivial).ensures state

/-- The templates that a linked template refers to were linked on the way. -/
theorem ensures_linkNodes (root : Span) (nodes : List Node) (state : LinkState) :
    Ensures (linkNodes root nodes) state fun _ _ =>
      ∀ template, Document.Refers ⟨root, nodes⟩ template → template.Links := by
  unfold linkNodes
  split
  · refine .pure ?_
    rintro _ (⟨found, -⟩ | ⟨found, -⟩) <;> cases found
  · rename_i span reference loaded children rest
    refine .bind (ensures_forbidInheritance rest state) fun _ _ free => ?_
    refine .bind (ensures_includeAllFiles rest _) fun _ _ included => ?_
    refine .bind (fun _ _ _ => True.intro) fun items middle _ => ?_
    split
    · exact .throw
    · rename_i ancestorRoot isRoot
      refine .modify_bind ?_
      have linked : ∀ before, Ensures (linkNodes ancestorRoot loaded) before
          fun _ _ => Document.Links ⟨ancestorRoot, loaded⟩ :=
        fun before value after done => ⟨before, value, after, done⟩
      refine .bind (linked _) fun _ _ ancestorLinks => ?_
      rintro _ _ - _ (⟨found, known⟩ | ⟨found, known⟩)
      · rcases List.mem_cons.mp found with same | found
        · cases same
          cases isRoot.symm.trans known
          exact ancestorLinks
        · cases free _ found
      · rcases List.mem_cons.mp found with same | found
        · cases same
        · exact included _ _ _ _ _ _ found known
  · rename_i node rest _
    refine .bind (ensures_forbidInheritance (node :: rest) state) fun _ _ free => ?_
    refine .bind (ensures_includeFiles node _) fun _ _ first => ?_
    refine .bind (ensures_includeAllFiles rest _) fun _ _ others => .pure ?_
    rintro _ (⟨found, -⟩ | ⟨found, known⟩)
    · cases free _ found
    · exact Node.allIncluded_append.mpr ⟨first, others⟩ _ _ _ _ _ _ found known

theorem Document.Links.of_refers {document template : Document} (links : document.Links)
    (refers : document.Refers template) : template.Links := by
  rcases links with ⟨state, linked, after, done⟩
  exact ensures_linkNodes document.span document.nodes state linked after done template refers

/-- All templates that are reached from a linked one were linked on the way. -/
theorem Document.Links.of_reaches {document template : Document} (links : document.Links)
    (reaches : document.Reaches template) : template.Links := by
  induction reaches with
  | refl => exact links
  | tail _ refers linked => exact linked.of_refers refers

theorem link_of_error {document : Document} {events : Array Event} {fault : Diagnostic LinkFault}
    {after : LinkState}
    (failed : linkNodes document.span document.nodes { events := events } = .error fault after) :
    link document events = .error fault after.events := by
  simp only [link, linkDocument, bind_of_error failed]

theorem Document.links_of_link {document page : Document} {events noted : Array Event}
    (linked : link document events = .ok page noted) : document.Links := by
  cases done : linkNodes document.span document.nodes { events := events } with
  | ok value after => exact ⟨_, value, after, done⟩
  | error fault after => simp [link_of_error done] at linked

/-! ### Blocks without a place in the ancestor -/

section

variable {items : List RootItem} {ancestor : Document}

/-- The named blocks of an extending template, each of which needs one of its name. -/
def RootItem.AllNamed (items : List RootItem) (ancestor : Document) : Prop :=
  ∀ block ∈ items.filterMap RootItem.block?, ∃ mode, ancestor.HasBlock block.name mode

theorem inheritFrom_of_not_allNamed (state : LinkState)
    (unnamed : ¬RootItem.AllNamed items ancestor) :
    ∃ missing ∈ items.filterMap RootItem.block?,
      (∀ mode, ¬ancestor.HasBlock missing.name mode) ∧
        inheritFrom items ancestor state =
          .error ⟨.unexpectedBlock missing.name, missing.span, none⟩ state := by
  cases found : (items.filterMap RootItem.block?).find? fun block =>
      !(blockNames ancestor.nodes).contains block.name with
  | some missing =>
      have absent := List.find?_some found
      rw [Bool.not_eq_true', ← Bool.not_eq_true, List.contains_iff_mem, mem_blockNames] at absent
      refine ⟨missing, List.mem_of_find?_eq_some found, fun mode has => absent ⟨mode, has⟩, ?_⟩
      simp only [inheritFrom, found]
      rfl
  | none =>
      refine absurd (fun block member => ?_) unnamed
      have present := List.find?_eq_none.mp found block member
      rwa [Bool.not_eq_true, Bool.not_eq_false', List.contains_iff_mem, mem_blockNames] at present

end

/-- A template that extends another one can be linked only if each of its blocks has a block of its
name in the ancestor. -/
theorem Descendant.allNamed_of_links {template : Descendant} (links : template.document.Links) :
    ∃ state items ancestor after, template.parts state = .ok (items, ancestor) after ∧
      RootItem.AllNamed items ancestor := by
  rcases links with ⟨state, linked, after, done⟩
  rw [template.linkNodes_document] at done
  cases found : template.parts state with
  | error fault middle =>
      rw [bind_of_error found] at done
      cases done
  | ok parts middle =>
      rw [bind_of_ok found] at done
      refine ⟨state, parts.1, parts.2, middle, found, Classical.byContradiction fun unnamed => ?_⟩
      rcases inheritFrom_of_not_allNamed middle unnamed with ⟨missing, -, -, failed⟩
      rw [bind_of_error failed] at done
      cases done

/-- A document is linked only if each block at the top level of an extending template has a named
block of its name in the linked ancestor; this is so for the document itself and for all templates
that it reaches. Otherwise a block without one is blamed. The named block may have any mode, but
only one that can be replaced takes an override. -/
theorem blocks_of_link (document : Document) (events : Array Event) :
    (∀ page noted, link document events = .ok page noted → ∀ template : Descendant,
      document.Reaches template.document →
        ∃ state items ancestor after, template.parts state = .ok (items, ancestor) after ∧
          RootItem.AllNamed items ancestor) ∧
    (∀ (template : Descendant) (items : List RootItem) (ancestor : Document) (after : LinkState),
      document = template.document →
      template.parts { events := events } = .ok (items, ancestor) after →
      ¬RootItem.AllNamed items ancestor →
        ∃ missing ∈ items.filterMap RootItem.block?,
          (∀ mode, ¬ancestor.HasBlock missing.name mode) ∧
            link document events =
              .error ⟨.unexpectedBlock missing.name, missing.span, none⟩ after.events) ∧
    ∀ (entry : Override) (ancestor : Document),
      0 < (entry.mergeIntoAll ancestor.nodes).2 ↔ ancestor.replaceable entry.name := by
  refine ⟨fun page noted linked template reaches => ?_, ?_, fun entry => entry.merged_iff⟩
  · exact Descendant.allNamed_of_links ((Document.links_of_link linked).of_reaches reaches)
  · rintro template items ancestor after rfl found unnamed
    rcases inheritFrom_of_not_allNamed after unnamed with ⟨missing, among, absent, failed⟩
    refine ⟨missing, among, absent, link_of_error ?_⟩
    rw [template.linkNodes_document, bind_of_ok found, bind_of_error failed]

/-- A page with one block, over a base that adds something to its content and has no other block. -/
def pageOver (name : String) : Descendant where
  root := {}
  span := {}
  reference :=
    { span := {}
      path := "base"
      fullPath := some "base"
      contents := some "main\n  append content\n    | old"
      bytes := some "main\n  append content\n    | old".toUTF8.data.toList
      root := some {} }
  loaded := [
    .branch {} (.tag ⟨"main", false, false, false, []⟩ {})
      [.branch {} (.namedBlock "content" .append) [.leaf {} (.text "old" false)]]]
  children := []
  nodes := [.branch {} (.namedBlock name .replace) [.leaf {} (.text "new" false)]]

theorem blocks_of_link_pageOver :
    (∃ page noted, link (pageOver "content").document #[] = .ok page noted ∧
      ∃ state items ancestor after,
        (pageOver "content").parts state = .ok (items, ancestor) after ∧
          RootItem.AllNamed items ancestor) ∧
    ∃ items ancestor after, (pageOver "footer").parts {} = .ok (items, ancestor) after ∧
      ¬RootItem.AllNamed items ancestor ∧
        ∃ missing ∈ items.filterMap RootItem.block?, ∃ noted,
          link (pageOver "footer").document #[] =
            .error ⟨.unexpectedBlock missing.name, missing.span, none⟩ noted := by
  constructor
  · exact ⟨_, _, rfl, (blocks_of_link _ #[]).1 _ _ rfl (pageOver "content") .refl⟩
  · have unnamed : ¬RootItem.AllNamed
        [.block ⟨{}, "footer", .replace, [.leaf {} (.text "new" false)]⟩]
        ⟨{}, (pageOver "footer").loaded⟩ := by
      simp [RootItem.AllNamed, RootItem.block?, Document.HasBlock, Document.walk, Node.walkAll,
        Node.walk, pageOver]
    rcases (blocks_of_link _ #[]).2.1 (pageOver "footer") _ _ _ rfl rfl unnamed with
      ⟨missing, among, -, failed⟩
    exact ⟨_, _, _, rfl, unnamed, missing, among, _, failed⟩

/-- A block may be ignored: the base has a block of its name, but none that can be replaced. -/
theorem exists_ignored_block :
    Node.FilledAll (pageOver "content").document.nodes ∧
      outcome (link (pageOver "content").document #[]) =
        .ok ⟨{}, [.branch {} (.tag ⟨"main", false, false, false, []⟩ {})
          [.leaf {} (.text "old" false)]]⟩ ∧
      ∃ items ancestor after, (pageOver "content").parts {} = .ok (items, ancestor) after ∧
        ∃ block ∈ items.filterMap RootItem.block?, ¬ancestor.replaceable block.name := by
  refine ⟨?_, rfl, _, _, _, rfl, ⟨{}, "content", .replace, _⟩, List.mem_cons_self, ?_⟩
  · exact ⟨⟨⟨rfl, rfl, rfl⟩, rfl, ⟨⟨⟨trivial, trivial⟩, trivial⟩, trivial⟩⟩,
      ⟨trivial, trivial⟩, trivial⟩
  · simp [Document.replaceable, Document.walk, Node.walkAll, Node.walk]

end Offside
