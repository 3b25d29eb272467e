import Offside.Html.Render
import Offside.Proofs.Computation
import Offside.Proofs.Contract.Stage

/-!
# Which nodes come before the renderer

Besides the nodes of the document, the renderer visits the bodies of declared mixins. These were
parts of the document as well, so a property that passes to the nodes in a branch is one of all
nodes that come before the renderer. A finished document gives it only nodes that it can write.

What holds of the declared mixins while a page is rendered has to give their bodies the property,
and no declaration among the nodes may break it.
-/

namespace Offside

namespace Node

/-- The mixin that a node declares or calls, with the body of the declaration or the block of the
call. -/
def mixin? : Node → Option (MixinHead × List Node)
  | .leaf _ (.mixin head) => some (head, [])
  | .branch _ (.mixin head _) children => some (head, children)
  | _ => none

/-- The mixin that a node declares, with the body of the declaration. -/
def declaration? (node : Node) : Option (MixinHead × List Node) :=
  node.mixin?.filter (!·.1.isCall)

theorem children?_of_mixin? {node : Node} {head : MixinHead} {children : List Node}
    (found : node.mixin? = some (head, children)) : node.children?.getD [] = children := by
  unfold mixin? at found
  split at found
  · cases found
    rfl
  · cases found
    rfl
  · cases found

theorem mixin?_of_declaration? {node : Node} {found : MixinHead × List Node}
    (declares : node.declaration? = some found) :
    node.mixin? = some found ∧ found.1.isCall = false := by
  simpa [declaration?, Option.filter_eq_some_iff] using declares

end Node

/-- Rendering meets only nodes with a property, and only such faults come up as are allowed. -/
structure Node.Renders (holds : Node → Prop) (allowed : Diagnostic RenderFault → Prop) : Prop where
  children : ∀ {span label children}, holds (.branch span label children) →
    Node.Every holds children
  blames : ∀ {node cause}, holds node → (∀ kind, cause ≠ .unsupportedNode kind) →
    allowed ⟨cause, node.span, none⟩
  namedBlock : ∀ {span name mode children}, holds (.branch span (.namedBlock name mode) children) →
    allowed ⟨.unsupportedNode (Label.namedBlock name mode).kind, span, none⟩
  filter : ∀ {span name attributes body children},
    holds (.branch span (.filter name attributes body) children) →
      allowed ⟨.unsupportedNode (Label.filter name attributes body).kind, span, none⟩
  file : ∀ {span use reference loaded children},
    holds (.file span use reference loaded children) →
      allowed ⟨.unsupportedNode use.kind, span, none⟩

namespace Html

open Computing

/-- The declared mixins by name. -/
abbrev Mixins := List (String × MixinDefinition)

/-- The bodies of all declared mixins have a property. -/
def Mixins.Have (holds : Node → Prop) (mixins : Mixins) : Prop :=
  ∀ entry ∈ mixins, Node.Every holds entry.2.body

/-- The mixins after one more declaration. -/
def Mixins.declare (mixins : Mixins) (name : String) (definition : MixinDefinition) : Mixins :=
  (name, definition) :: mixins.filter fun (other, _) => other ≠ name

/-- A property of the declared mixins that goes with one of nodes: it gives the bodies that one, and
nodes that have that one keep it when they are declarations. -/
structure Mixins.Follow (holds : Node → Prop) (kept : Mixins → Prop) : Prop where
  bodies : ∀ {mixins}, kept mixins → mixins.Have holds
  declare : ∀ {node head body mixins parameters}, holds node →
    node.declaration? = some (head, body) → kept mixins →
      kept (mixins.declare head.name ⟨parameters, body⟩)

section

variable (kept : Mixins → Prop) (allowed : Diagnostic RenderFault → Prop)

/-- As long as the declared mixins have a property, only such faults come up as are allowed, and the
mixins have the property afterwards. -/
def Rendering.Supports {α : Type} (action : Rendering α) : Prop :=
  ∀ machine : Machine, kept machine.mixins →
    match action machine with
    | .ok _ after => kept after.mixins
    | .error fault _ => allowed fault

/-- All faults are allowed at a place, other than that a node is refused for what it is. -/
def Rendering.Blames (span : Span) : Prop :=
  ∀ {cause}, (∀ kind, cause ≠ .unsupportedNode kind) → allowed ⟨cause, span, none⟩

end

variable {holds : Node → Prop} {kept : Mixins → Prop} {allowed : Diagnostic RenderFault → Prop}

namespace Rendering.Supports

variable {α β : Type} {action : Rendering α} {next : α → Rendering β}

theorem pure {value : α} : Supports kept allowed (pure value) :=
  fun _ given => given

theorem fail {span : Span} {cause : RenderFault} (given : allowed ⟨cause, span, none⟩) :
    Supports kept allowed (fail span cause : Rendering α) :=
  fun _ _ => given

theorem bind (first : Supports kept allowed action)
    (second : ∀ value, Supports kept allowed (next value)) :
    Supports kept allowed (action >>= next) := by
  intro machine given
  have done := first machine given
  cases acted : action machine with
  | error fault middle =>
      rw [bind_of_error acted]
      simpa only [acted] using done
  | ok value middle =>
      rw [bind_of_ok acted]
      simp only [acted] at done
      exact second value middle done

theorem fail_bind {span : Span} {cause : RenderFault} (given : allowed ⟨cause, span, none⟩) :
    Supports kept allowed ((Rendering.fail span cause : Rendering α) >>= next) :=
  fun _ _ => given

theorem get_bind {next : Machine → Rendering β}
    (each : ∀ machine : Machine, kept machine.mixins → Supports kept allowed (next machine)) :
    Supports kept allowed (get >>= next) :=
  fun machine given => each machine given machine given

theorem write (text : String) : Supports kept allowed (write text) :=
  fun _ given => given

/-- A change of the state, and the way back, that leave the mixins as they are. -/
theorem bracket {keep : Machine → α} {into : Machine → Machine} {back : α → Machine → Machine}
    {content : Rendering Unit} (supports : Supports kept allowed content)
    (entered : ∀ machine, (into machine).mixins = machine.mixins)
    (left : ∀ kept machine, (back kept machine).mixins = machine.mixins) :
    Supports kept allowed (bracket keep into back content) := by
  intro machine given
  have done := supports (into machine) (by simpa only [entered] using given)
  dsimp only [Rendering.bracket]
  cases acted : content (into machine) with
  | error fault after => simpa only [acted] using done
  | ok value after => simpa only [acted, left] using done

end Rendering.Supports

open Rendering

section

variable {span : Span} (blames : Blames allowed span)

include blames

theorem supports_lookup (name : String) : Supports kept allowed (lookup name span) := by
  apply Supports.get_bind
  intro machine _
  split
  · exact .pure
  · exact .fail (blames (by simp))

theorem supports_argumentValue (argument : List Char) :
    Supports kept allowed (argumentValue argument span) := by
  unfold argumentValue
  split
  · exact .pure
  · split
    · exact .pure
    · split
      · exact supports_lookup blames _
      · exact .fail (blames (by simp))

theorem supports_bindArguments (pairs : List (String × List Char))
    (bindings : List (String × String)) :
    Supports kept allowed (bindArguments span pairs bindings) := by
  induction pairs generalizing bindings with
  | nil => exact .pure
  | cons pair rest ih => exact .bind (supports_argumentValue blames _) fun _ => ih _

theorem supports_element {name : String} {selfClosing : Bool} {attributes : List Attribute}
    {children : List Node} {content : Rendering Unit} (supports : Supports kept allowed content) :
    Supports kept allowed (element name span selfClosing attributes children content) := by
  apply Supports.bind (.write _)
  intro _
  split
  · split
    · exact .fail (blames (by simp))
    · exact .pure
  · exact .bind supports fun _ => .write _

theorem supports_declareMixin (follow : Mixins.Follow holds kept) {node : Node} (found : holds node)
    {head : MixinHead} {body : List Node} (declares : node.declaration? = some (head, body)) :
    Supports kept allowed (declareMixin head span body) := by
  unfold declareMixin
  dsimp only
  split
  · exact .fail (blames (by simp))
  · exact fun machine given => follow.declare found declares given

end

/-- What is rendered one level deeper meets no fault in a body with a property but allowed ones. -/
def Deeper.Supports (holds : Node → Prop) (kept : Mixins → Prop)
    (allowed : Diagnostic RenderFault → Prop) (deeper : Deeper) : Prop :=
  ∀ render ∈ deeper, ∀ block, Rendering.Supports kept allowed block →
    ∀ body, Node.Every holds body → Rendering.Supports kept allowed (render block body)

section

variable {limit : Nat} {deeper : Deeper} {block : Rendering Unit} {span : Span}

theorem supports_callMixin (follow : Mixins.Follow holds kept) (blames : Blames allowed span)
    (below : deeper.Supports holds kept allowed) (supports : Supports kept allowed block)
    (head : MixinHead) : Supports kept allowed (callMixin limit deeper head span block) := by
  apply Supports.get_bind
  intro machine given
  cases known : machine.mixins.lookup head.name with
  | none => exact .fail (blames (by simp))
  | some definition =>
      rcases List.lookup_eq_some_iff.mp known with ⟨before, after, split, -⟩
      have body : Node.Every holds definition.body :=
        follow.bodies given (head.name, definition) (by simp [split])
      dsimp only
      split
      · exact .fail_bind (blames (by simp))
      · apply Supports.bind (supports_bindArguments blames _ _)
        intro bindings
        cases deeper with
        | none => exact .fail (blames (by simp))
        | some render =>
            exact .bracket (below render rfl block supports _ body) (fun _ => rfl) fun _ _ => rfl

theorem supports_mixinBlock (blames : Blames allowed span)
    (supports : Supports kept allowed block) : Supports kept allowed (mixinBlock span block) := by
  apply Supports.get_bind
  intro machine _
  split
  · exact .fail (blames (by simp))
  · exact .bracket supports (fun _ => rfl) fun _ _ => rfl

theorem supports_showVariable (blames : Blames allowed span) (expression : String)
    (escaped : Bool) : Supports kept allowed (showVariable expression escaped span) :=
  .bind (supports_lookup blames _) fun _ => .write _

theorem supports_leafText (follow : Mixins.Follow holds kept) (blames : Blames allowed span)
    (below : deeper.Supports holds kept allowed) (supports : Supports kept allowed block)
    {content : Leaf} (found : holds (.leaf span content)) :
    Supports kept allowed (leafText limit deeper block span content) := by
  cases content with
  | mixinBlock => exact supports_mixinBlock blames supports
  | yieldSlot => exact .pure
  | text value html => exact .write value
  | code expression buffered escaped inLine =>
      simp only [leafText]
      split
      · exact supports_showVariable blames _ _
      · exact .pure
  | comment value buffered =>
      simp only [leafText]
      split
      · exact .write _
      · exact .pure
  | doctype value => exact .pure
  | mixin head =>
      simp only [leafText]
      split
      · exact supports_callMixin follow blames below .pure _
      · next isDeclaration =>
          exact supports_declareMixin blames follow found
            (by simp [Node.declaration?, Node.mixin?, isDeclaration])

mutual

theorem supports_visit (renders : Node.Renders holds allowed) (follow : Mixins.Follow holds kept)
    (below : deeper.Supports holds kept allowed) (supports : Supports kept allowed block) :
    ∀ {node : Node}, holds node → Supports kept allowed (visit limit deeper block node)
  | .leaf _ content, found =>
      supports_leafText follow (renders.blames found) below supports found
  | .file .., found => .fail (renders.file found)
  | .branch span label children, found => by
      have blames : Blames allowed span := renders.blames found
      have content := supports_visitAll renders follow below supports (renders.children found)
      unfold visit
      cases label with
      | block => exact content
      | tag head body => exact supports_element blames content
      | variableTag head body =>
          exact .bind (supports_lookup blames _) fun name => supports_element blames content
      | mixin head body =>
          dsimp only
          split
          · exact supports_callMixin follow blames below content _
          · next isDeclaration =>
              exact supports_declareMixin blames follow found
                (by simp [Node.declaration?, Node.mixin?, isDeclaration])
      | blockComment value buffered body =>
          dsimp only
          split
          · exact .bind (.write _) fun _ => .bind content fun _ => .write _
          · exact .pure
      | namedBlock name mode => exact .fail (renders.namedBlock found)
      | filter name attributes body => exact .fail (renders.filter found)

theorem supports_visitAll (renders : Node.Renders holds allowed)
    (follow : Mixins.Follow holds kept) (below : deeper.Supports holds kept allowed)
    (supports : Supports kept allowed block) :
    ∀ {nodes : List Node}, Node.Every holds nodes →
      Supports kept allowed (visitAll limit deeper block nodes)
  | [], _ => .pure
  | _ :: _, found => by
      rw [Node.every_cons] at found
      unfold visitAll
      exact .bind (supports_visit renders follow below supports found.1) fun _ =>
        supports_visitAll renders follow below supports found.2

end

theorem visitAll_append (left right : List Node) :
    visitAll limit deeper block (left ++ right) =
      (do
        visitAll limit deeper block left
        visitAll limit deeper block right) := by
  induction left with
  | nil => simp [visitAll]
  | cons node rest ih => simp [visitAll, ih]

theorem supports_levels (renders : Node.Renders holds allowed) (follow : Mixins.Follow holds kept)
    (limit remaining : Nat) : (levels limit remaining).Supports holds kept allowed := by
  induction remaining with
  | zero => exact fun render found => nomatch found
  | succ remaining ih =>
      rintro _ ⟨⟩ block supports body found
      exact supports_visitAll renders follow ih supports found

end

/-- What all nodes have, and branches pass to their children, the bodies of declared mixins have. -/
theorem Mixins.follow_have
    (children : ∀ {span label children}, holds (.branch span label children) →
      Node.Every holds children) : Mixins.Follow holds (Mixins.Have holds) where
  bodies given := given
  declare := by
    intro node head body mixins parameters found declares given entry member
    rcases List.mem_cons.mp member with rfl | member
    · have isMixin := (Node.mixin?_of_declaration? declares).1
      unfold Node.mixin? at isMixin
      split at isMixin
      · cases isMixin
        exact Node.every_nil
      · cases isMixin
        exact children found
      · cases isMixin
    · exact given entry (List.mem_filter.mp member).1

end Html

open Computing Html

/-- In a document whose nodes have the property, rendering meets no fault but allowed ones. -/
theorem Node.Renders.satisfies_render {holds : Node → Prop}
    {allowed : Diagnostic RenderFault → Prop} (renders : Node.Renders holds allowed)
    {document : Document} (found : Node.Every holds document.nodes) (options : RenderOptions) :
    Satisfies (render document options) (fun _ => True) allowed := by
  have follow := Mixins.follow_have renders.children
  have visits : Rendering.Supports (Mixins.Have holds) allowed (visitAll options.maxMixinDepth
      (levels options.maxMixinDepth options.maxMixinDepth) (pure ()) document.nodes) :=
    supports_visitAll renders follow (supports_levels renders follow _ _) .pure found
  intro events
  have done := visits (Machine.start options.globals doctype events)
    (by simp [Mixins.Have, Machine.start])
  dsimp only [render]
  revert done
  cases visitAll options.maxMixinDepth (levels options.maxMixinDepth options.maxMixinDepth)
      (pure ()) document.nodes (Machine.start options.globals doctype events) with
  | ok value machine => exact fun _ => trivial
  | error fault machine => exact id

/-- The renderer refuses no node of a finished document for what it is. -/
theorem Node.renders_finished :
    Node.Renders (Node.Has .finished) fun fault => ∀ kind, fault.cause ≠ .unsupportedNode kind where
  children has := Node.haveAll_iff_every.mp has.2
  blames _ supported := supported
  namedBlock has := absurd rfl (has.1.1 _ _)
  filter has := absurd rfl (has.1.2 _ _ _)
  file {_ use _ _ _} has := by cases use <;> exact has.elim

/-- No node of a finished document is refused by the renderer for what it is. -/
theorem Html.satisfies_render {document : Document}
    (finished : Node.HaveAll .finished document.nodes) (options : RenderOptions) :
    Satisfies (render document options) (fun _ => True)
      fun fault => ∀ kind, fault.cause ≠ .unsupportedNode kind :=
  Node.renders_finished.satisfies_render (Node.haveAll_iff_every.mp finished) options

end Offside
