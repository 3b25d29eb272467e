import Offside.Proofs.Arguments.Grammar
import Offside.Proofs.Contract.Pipeline

/-!
# Mixins in a finished document

No stage between reading and rendering takes a declaration or a call out of the top level of a
document. Loading and filtering leave such nodes in their places; linking puts the nodes of other
files and of named blocks between them. Only a template that extends another one would give up its
top level, but such a template may hold no call there.
-/

namespace Offside

open Computing

namespace Node

/-- The declarations and calls among some nodes are also among others, in the same order. -/
def KeepsHeads (nodes found : List Node) : Prop :=
  (nodes.filterMap mixinHead?).Sublist (found.filterMap mixinHead?)

namespace KeepsHeads

variable {node : Node} {nodes found others more : List Node}

theorem refl (nodes : List Node) : KeepsHeads nodes nodes :=
  List.Sublist.refl _

theorem append (first : KeepsHeads nodes found) (second : KeepsHeads others more) :
    KeepsHeads (nodes ++ others) (found ++ more) := by
  unfold KeepsHeads
  rw [List.filterMap_append, List.filterMap_append]
  exact List.Sublist.append first second

/-- A node that is no mixin may be replaced. -/
theorem of_none (none : node.mixinHead? = none) : KeepsHeads [node] found := by
  simp [KeepsHeads, none]

/-- A branch may get other children. -/
theorem branch (span : Span) (label : Label) (children others : List Node) :
    KeepsHeads [.branch span label children] [.branch span label others] := by
  cases label with
  | mixin head body => exact List.Sublist.refl _
  | _ => exact of_none rfl

end KeepsHeads

end Node

open Node

/-! ### Loading -/

section

variable {options : LoadOptions} {deeper : Loading.Deeper} {origin : Origin}

theorem keepsHeads_loadNode (node : Node) :
    Satisfies (loadNode options deeper origin node) (fun loaded => KeepsHeads [node] [loaded])
      fun _ => True := by
  cases node with
  | leaf =>
      unfold loadNode
      exact .pure (.refl _)
  | branch span label children =>
      unfold loadNode
      exact .bind (.trivial _) fun loaded _ => .pure (.branch span label children loaded)
  | file => exact (Satisfies.trivial _).mono (fun _ _ => .of_none rfl) fun _ => id

theorem keepsHeads_loadNodes (nodes : List Node) :
    Satisfies (loadNodes options deeper origin nodes) (KeepsHeads nodes) fun _ => True := by
  induction nodes with
  | nil =>
      unfold loadNodes
      exact .pure (.refl _)
  | cons node rest ih =>
      unfold loadNodes
      exact .bind (keepsHeads_loadNode node) fun _ first => .bind ih fun _ others =>
        .pure (first.append others)

theorem keepsHeads_load (document : Document) (origin : Origin) (options : LoadOptions) :
    Satisfies (load document origin options)
      (fun loaded => KeepsHeads document.nodes loaded.nodes) fun _ => True := by
  intro events
  have loads : Satisfies (loadNodes options (loadLevels options options.maxDepth) origin
      document.nodes) (KeepsHeads document.nodes) fun _ => True :=
    keepsHeads_loadNodes document.nodes
  have loaded := loads { events := events }
  dsimp only [load]
  revert loaded
  cases loadNodes options (loadLevels options options.maxDepth) origin document.nodes
      { events := events } <;> exact id

end

/-! ### Linking -/

theorem keepsHeads_dissolveBlocks (node : Node) : KeepsHeads [node] (dissolveBlocks node) := by
  cases node with
  | leaf => exact .refl _
  | file => exact .of_none rfl
  | branch span label children =>
      cases label with
      | namedBlock => exact .of_none rfl
      | _ => exact .branch span _ children _

theorem keepsHeads_dissolveAllBlocks (nodes : List Node) :
    KeepsHeads nodes (dissolveAllBlocks nodes) := by
  induction nodes with
  | nil => exact .refl _
  | cons node rest ih => exact (keepsHeads_dissolveBlocks node).append ih

theorem keepsHeads_includeFiles (node : Node) :
    Satisfies (includeFiles node) (KeepsHeads [node]) fun _ => True := by
  cases node with
  | leaf =>
      unfold includeFiles
      exact .pure (.refl _)
  | branch span label children =>
      unfold includeFiles
      exact .bind (.trivial _) fun found _ => .pure (.branch span label children found)
  | file => exact (Satisfies.trivial _).mono (fun _ _ => .of_none rfl) fun _ => id

theorem keepsHeads_includeAllFiles (nodes : List Node) :
    Satisfies (includeAllFiles nodes) (KeepsHeads nodes) fun _ => True := by
  induction nodes with
  | nil =>
      unfold includeAllFiles
      exact .pure (.refl _)
  | cons node rest ih =>
      unfold includeAllFiles
      exact .bind (keepsHeads_includeFiles node) fun _ first => .bind ih fun _ others =>
        .pure (first.append others)

/-- At the top level of an extending template is no call. -/
theorem satisfies_rootItems_noCall (node : Node) :
    Satisfies (rootItems node) (fun _ => ∀ found ∈ node.mixinHead?, found.2.isCall = false)
      fun _ => True := by
  cases node with
  | leaf span content =>
      cases content with
      | mixin head =>
          unfold rootItems
          dsimp only
          split
          · exact .throw trivial
          · next isDeclaration =>
              refine .pure ?_
              rintro _ ⟨⟩
              simpa using isDeclaration
      | _ => exact (Satisfies.trivial _).mono (fun _ _ => nofun) fun _ => id
  | branch span label children =>
      cases label with
      | mixin head body =>
          unfold rootItems
          dsimp only
          split
          · exact .throw trivial
          · next isDeclaration =>
              refine .pure ?_
              rintro _ ⟨⟩
              simpa using isDeclaration
      | _ => exact (Satisfies.trivial _).mono (fun _ _ => nofun) fun _ => id
  | file => exact (Satisfies.trivial _).mono (fun _ _ => nofun) fun _ => id

theorem satisfies_rootItemsOfAll_noCall (nodes : List Node) :
    Satisfies (rootItemsOfAll nodes)
      (fun _ => ∀ found ∈ nodes.filterMap mixinHead?, found.2.isCall = false)
      fun _ => True := by
  induction nodes with
  | nil =>
      unfold rootItemsOfAll
      exact .pure (by simp)
  | cons node rest ih =>
      unfold rootItemsOfAll
      refine .bind (satisfies_rootItems_noCall node) fun _ first => .bind ih fun _ others => ?_
      refine .pure fun found member => ?_
      rcases List.mem_filterMap.mp member with ⟨other, here, isHead⟩
      rcases List.mem_cons.mp here with rfl | inRest
      · exact first found isHead
      · exact others found (List.mem_filterMap.mpr ⟨other, inRest, isHead⟩)

section

variable {declared called : Span × MixinHead} {nodes found : List Node}

theorem Node.DeclareAndCall.keep (among : DeclareAndCall declared called nodes)
    (kept : KeepsHeads nodes found) : DeclareAndCall declared called found := by
  rcases among with ⟨attributes, among⟩
  exact ⟨attributes, among.trans kept⟩

variable (isCall : called.2.isCall = true)

include isCall

/-- A template with a call at its top level extends no other one, and keeps the call. -/
theorem satisfies_linkNodes_call (root : Span) (among : DeclareAndCall declared called nodes) :
    Satisfies (linkNodes root nodes)
      (fun linked => DeclareAndCall declared called linked.document.nodes) fun _ => True := by
  unfold linkNodes
  split
  · exact .pure among
  · next span reference loaded children rest =>
      refine .bind (.trivial _) fun _ _ => ?_
      refine .bind (keepsHeads_includeAllFiles rest) fun found kept => ?_
      refine .bind (satisfies_rootItemsOfAll_noCall found) fun items noCall => ?_
      rcases among with ⟨attributes, among⟩
      have here : (called.1, { called.2 with attributes := attributes }) ∈
          found.filterMap mixinHead? := (among.trans kept).subset (by simp)
      exact absurd (noCall _ here) (by simp [isCall])
  · next node rest _ =>
      refine .bind (.trivial _) fun _ _ => ?_
      refine .bind (keepsHeads_includeFiles node) fun _ first => ?_
      refine .bind (keepsHeads_includeAllFiles rest) fun _ others => ?_
      exact .pure (among.keep (first.append others))

theorem satisfies_link_call {document : Document}
    (among : DeclareAndCall declared called document.nodes) :
    Satisfies (link document) (fun linked => DeclareAndCall declared called linked.nodes)
      fun _ => True := by
  have linked : Satisfies (linkDocument document)
      (fun linked => DeclareAndCall declared called linked.nodes) fun _ => True :=
    .bind (satisfies_linkNodes_call isCall document.span among) fun linked found =>
      .pure (found.keep (keepsHeads_dissolveAllBlocks linked.document.nodes))
  intro events
  have done := linked { events := events }
  dsimp only [link]
  revert done
  cases linkDocument document { events := events } <;> exact id

end

/-! ### Filtering -/

theorem keepsHeads_applyToNode (set : FilterSet) (node : Node) :
    Satisfies (set.applyToNode node) (fun filtered => KeepsHeads [node] [filtered])
      fun _ => True := by
  cases node with
  | leaf =>
      unfold FilterSet.applyToNode
      exact .pure (.refl _)
  | branch span label children =>
      cases label with
      | filter => exact (Satisfies.trivial _).mono (fun _ _ => .of_none rfl) fun _ => id
      | _ =>
          unfold FilterSet.applyToNode
          exact .bind (.trivial _) fun found _ => .pure (.branch span _ children found)
  | file => exact (Satisfies.trivial _).mono (fun _ _ => .of_none rfl) fun _ => id

theorem keepsHeads_applyToNodes (set : FilterSet) (nodes : List Node) :
    Satisfies (set.applyToNodes nodes) (KeepsHeads nodes) fun _ => True := by
  induction nodes with
  | nil =>
      unfold FilterSet.applyToNodes
      exact .pure (.refl _)
  | cons node rest ih =>
      unfold FilterSet.applyToNodes
      exact .bind (keepsHeads_applyToNode set node) fun _ first => .bind ih fun _ others =>
        .pure (first.append others)

theorem keepsHeads_apply (set : FilterSet) (document : Document) :
    Satisfies (set.apply document) (fun filtered => KeepsHeads document.nodes filtered.nodes)
      fun _ => True := by
  intro events
  have done := keepsHeads_applyToNodes set document.nodes { events := events }
  dsimp only [FilterSet.apply]
  revert done
  cases set.applyToNodes document.nodes { events := events } <;> exact id

/-! ### From the source -/

section

variable {options : PageOptions} {read : Reader} {file : Option String} {source : String}
  {events : Array Event}

theorem ensures_ofSource {holds : Document → Prop}
    (parses : ∀ tokens middle, tokenize source { file } events = .ok tokens middle →
      Ensures (parse tokens.toList { file, source := some source }) middle
        fun document _ => holds document) :
    Ensures (Document.ofSource {} file source) events fun document _ => holds document := by
  refine .bind (.adaptExcept fun tokens middle lexed => ?_) fun tokens middle parsed => parsed
  exact .adaptExcept (parses tokens middle lexed)

/-- What is at the top level when a source was read is still there at the end. -/
theorem ensures_finishedDocument_of_ofSource {declared called : Span × MixinHead}
    (isCall : called.2.isCall = true)
    (reads : Ensures (Document.ofSource {} file source) events fun document _ =>
      DeclareAndCall declared called document.nodes) :
    Ensures (finishedDocument options read file source) events fun finished _ =>
      DeclareAndCall declared called finished.nodes := by
  have loads : Ensures (loadedDocument options read file source) events fun loaded _ =>
      DeclareAndCall declared called loaded.nodes :=
    .bind reads fun document middle among =>
      ((keepsHeads_load document _ _).ensures middle).mono fun _ _ => among.keep
  have links (loaded : Document) (among : DeclareAndCall declared called loaded.nodes) :
      Satisfies ((link loaded).adaptExcept fun fault =>
        (Sources.ofDocument file source loaded).attach (.link fault))
        (fun linked => DeclareAndCall declared called linked.nodes) fun _ => True :=
    .adaptExcept (satisfies_link_call isCall among) fun _ _ => trivial
  have filters (linked : Document × Sources)
      (among : DeclareAndCall declared called linked.1.nodes) :
      Satisfies ((options.filters.apply linked.1).adaptExcept fun fault =>
        linked.2.attach (.filter fault))
        (fun filtered => DeclareAndCall declared called filtered.nodes) fun _ => True :=
    .adaptExcept ((keepsHeads_apply options.filters linked.1).mono (fun _ => among.keep)
      fun _ => id) fun _ _ => trivial
  unfold finishedDocument
  rw [compileWithSources_eq]
  refine .bind (.bind loads fun loaded middle among => ?_) fun linked middle among =>
    (filters linked among).ensures middle
  exact .bind ((links loaded among).ensures middle) fun linked _ among => .pure among

/-- A declaration and a call behind it that begin lines of a source, outside of all levels, are at
the top level of the finished document, in this order. -/
theorem ensures_finishedDocument_call {front between : List Token} {declared called : Token}
    (parts : ∀ tokens middle, tokenize source { file } events = .ok tokens middle →
      ∃ behind, tokens.toList = front ++ declared :: (between ++ called :: behind))
    (first : EndLines 0 front) (second : EndLines 0 (front ++ declared :: between))
    {name mixin : String} {parameters arguments : Option String}
    (isDeclaration : declared.kind = .mixin name parameters)
    (isCall : called.kind = .call mixin arguments) :
    Ensures (finishedDocument options read file source) events fun finished _ =>
      DeclareAndCall (declared.span.inFile file, ⟨name, parameters, false, []⟩)
        (called.span.inFile file, ⟨mixin, arguments, true, []⟩) finished.nodes := by
  refine ensures_finishedDocument_of_ofSource rfl (ensures_ofSource ?_)
  intro tokens middle lexed document last parsed
  rcases parts tokens middle lexed with ⟨behind, parts⟩
  rw [parts] at parsed
  exact mixinHeads_of_parse parsed first second isDeclaration isCall

end

end Offside
