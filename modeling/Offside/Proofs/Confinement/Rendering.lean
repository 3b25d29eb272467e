import Offside.Proofs.Confinement.Document
import Offside.Proofs.Html.Context

/-!
# Rendering with the block of a call in its place

While the body of a mixin is rendered there is a call under way. Where there is none, the nodes that
are rendered are those of the document itself, and blocks of calls in it. If it is confined, none of
them asks for the block of a call.
-/

namespace Offside.Html

open Computing Rendering

/-- With certain calls under way, the computation does not fail for want of a call, and the same
calls are under way afterwards. -/
def Rendering.SafeIn {α : Type} (calls : List Call) (action : Rendering α) : Prop :=
  ∀ machine : Machine, machine.calls = calls →
    match action machine with
    | .ok _ after => after.calls = calls
    | .error fault _ => fault.cause ≠ .callStackUnderflow

namespace Rendering.SafeIn

variable {α β : Type} {calls : List Call} {action : Rendering α} {next : α → Rendering β}

theorem pure {value : α} : SafeIn calls (pure value) :=
  fun _ same => same

theorem fail {span : Span} {cause : RenderFault} (other : cause ≠ .callStackUnderflow) :
    SafeIn calls (fail span cause : Rendering α) :=
  fun _ _ => other

theorem bind (first : SafeIn calls action) (second : ∀ value, SafeIn calls (next value)) :
    SafeIn calls (action >>= next) := by
  intro machine same
  have done := first machine same
  cases acted : action machine with
  | error fault middle =>
      rw [bind_of_error acted]
      simpa only [acted] using done
  | ok value middle =>
      rw [bind_of_ok acted]
      simp only [acted] at done
      exact second value middle done

theorem write (text : String) : SafeIn calls (write text) :=
  fun _ same => same

end Rendering.SafeIn

section

variable {calls : List Call}

/-! ### What only reads the state -/

theorem cause_ne_of_valueIn {environment : Environment} {span : Span} {name : String}
    {fault : Diagnostic RenderFault} (failed : valueIn environment span name = .error fault) :
    fault.cause ≠ .callStackUnderflow := by
  unfold valueIn at failed
  split at failed <;> cases failed
  simp

theorem cause_ne_of_argumentIn {environment : Environment} {span : Span} {argument : List Char}
    {fault : Diagnostic RenderFault}
    (failed : argumentIn environment span argument = .error fault) :
    fault.cause ≠ .callStackUnderflow := by
  unfold argumentIn at failed
  split at failed
  · cases failed
  · split at failed
    · cases failed
    · split at failed
      · exact cause_ne_of_valueIn failed
      · cases failed
        simp

theorem cause_ne_of_bindingsIn {environment : Environment} {span : Span}
    {pairs : List (String × List Char)} {bindings : List (String × String)}
    {fault : Diagnostic RenderFault}
    (failed : bindingsIn environment span pairs bindings = .error fault) :
    fault.cause ≠ .callStackUnderflow := by
  induction pairs generalizing bindings with
  | nil => cases failed
  | cons pair rest ih =>
      simp only [bindingsIn] at failed
      split at failed
      · exact ih failed
      · rename_i argumentFault argumentFailed
        cases failed
        exact cause_ne_of_argumentIn argumentFailed

theorem cause_ne_of_calleeIn {environment : Environment} {span : Span}
    {definition? : Option MixinDefinition} {head : MixinHead} {fault : Diagnostic RenderFault}
    (failed : calleeIn environment span definition? head = .error fault) :
    fault.cause ≠ .callStackUnderflow := by
  unfold calleeIn at failed
  split at failed
  · cases failed
    simp
  · dsimp only at failed
    split at failed
    · cases failed
      simp
    · rename_i definition _
      cases bound : bindingsIn environment span
        (definition.parameters.zip (listItems (head.arguments.getD "").toList)) [] with
      | ok bindings => simp [bound, Except.map] at failed
      | error bindingFault =>
          simp only [bound, Except.map, Except.error.injEq] at failed
          subst failed
          exact cause_ne_of_bindingsIn bound

theorem safeIn_lookup (name : String) (span : Span) : SafeIn calls (lookup name span) := by
  intro machine same
  rw [lookup_eq]
  cases found : valueIn machine.lookup? span name with
  | ok value => exact same
  | error fault => exact cause_ne_of_valueIn found

theorem safeIn_showVariable (expression : String) (escaped : Bool) (span : Span) :
    SafeIn calls (showVariable expression escaped span) :=
  .bind (safeIn_lookup _ _) fun _ => .write _

theorem safeIn_declareMixin (head : MixinHead) (span : Span) (body : List Node) :
    SafeIn calls (declareMixin head span body) := by
  intro machine same
  rw [declareMixin_eq]
  cases found : declared head span body with
  | ok definition => exact same
  | error fault =>
      unfold declared at found
      dsimp only at found
      split at found <;> cases found
      simp

theorem safeIn_element {name : String} {span : Span} {selfClosing : Bool}
    {attributes : List Attribute} {children : List Node} {content : Rendering Unit}
    (safe : SafeIn calls content) :
    SafeIn calls (element name span selfClosing attributes children content) := by
  apply SafeIn.bind (.write _)
  intro _
  split
  · split
    · exact .fail (by simp)
    · exact .pure
  · exact .bind safe fun _ => .write _

/-! ### Calls and their blocks -/

/-- Rendering one level deeper is safe in a call that is made where its block is safe. -/
def Deeper.Safe (deeper : Deeper) : Prop :=
  ∀ render ∈ deeper, ∀ calls block, SafeIn calls block →
    ∀ call body, SafeIn (call :: calls) (render block body)

variable {limit : Nat} {deeper : Deeper} {block : Rendering Unit}

theorem safeIn_callMixin (below : deeper.Safe) (safe : SafeIn calls block) (head : MixinHead)
    (span : Span) : SafeIn calls (callMixin limit deeper head span block) := by
  intro machine same
  rw [callMixin_eq]
  cases found : calleeIn machine.lookup? span (machine.mixins.lookup head.name) head with
  | error fault => exact cause_ne_of_calleeIn found
  | ok callee =>
      rcases callee with ⟨body, bindings⟩
      cases deeper with
      | none =>
          have stopped : SafeIn calls (fail span (.recursionLimit limit) : Rendering Unit) :=
            .fail (by simp)
          exact stopped machine same
      | some render =>
          have inside := below render rfl calls block safe ⟨machine.scope⟩ body
            (machine.entered head.name bindings) (by simp [Machine.entered, Machine.enter,
              Machine.note, same])
          simp only [enterMixin, bracket]
          cases acted : render block body (machine.entered head.name bindings) with
          | error fault after => simpa only [acted] using inside
          | ok value after =>
              simp only [acted] at inside
              simp [Machine.leave, inside]

/-- The block of the innermost call is rendered where that call was made. -/
theorem safeIn_mixinBlock {call : Call} (safe : SafeIn calls block) (span : Span) :
    SafeIn (call :: calls) (mixinBlock span block) := by
  intro machine same
  have inside := safe (machine.suspend call) (by simp [Machine.suspend, same])
  rw [mixinBlock_eq, same]
  simp only [bracket]
  cases acted : block (machine.suspend call) with
  | error fault after => simpa only [acted] using inside
  | ok value after =>
      simp only [acted] at inside
      simp [Machine.resume, inside]

/-- The block of the innermost call, if there is one, is safe where that call was made. -/
def BlockSafe (calls : List Call) (block : Rendering Unit) : Prop :=
  ∀ call others, calls = call :: others → SafeIn others block

theorem safeIn_leafText (below : deeper.Safe) (safe : BlockSafe calls block) (span : Span)
    {content : Leaf} (confined : calls = [] → content ≠ .mixinBlock) :
    SafeIn calls (leafText limit deeper block span content) := by
  cases content with
  | mixinBlock =>
      cases calls with
      | nil => exact absurd rfl (confined rfl)
      | cons call others => exact safeIn_mixinBlock (safe call others rfl) span
  | yieldSlot => exact .pure
  | text value html => exact .write value
  | code expression buffered escaped inLine =>
      simp only [leafText]
      split
      · exact safeIn_showVariable _ _ _
      · exact .pure
  | comment value buffered =>
      simp only [leafText]
      split
      · exact .write _
      · exact .pure
  | doctype value => exact .pure
  | mixin head =>
      simp only [leafText]
      split
      · exact safeIn_callMixin below .pure _ _
      · exact safeIn_declareMixin head span []

mutual

theorem safeIn_visit (below : deeper.Safe) (safe : BlockSafe calls block) :
    ∀ {node : Node}, (calls = [] → node.Confined) → SafeIn calls (visit limit deeper block node)
  | .leaf span content, confined => safeIn_leafText below safe span confined
  | .file span use _ _ _, _ => SafeIn.fail (by simp)
  | .branch span label children, confined => by
      -- The nodes in a declaration are not rendered in its place, so they need not be confined.
      have content (renders : label.declaresMixin = false) :
          SafeIn calls (visitAll limit deeper block children) :=
        safeIn_visitAll below safe fun none =>
          (confined none).resolve_left (by simp [renders])
      unfold visit
      cases label with
      | block => exact content rfl
      | tag head body => exact safeIn_element (content rfl)
      | variableTag head body =>
          exact .bind (safeIn_lookup _ _) fun name => safeIn_element (content rfl)
      | mixin head body =>
          dsimp only
          split
          · rename_i isCall
            exact safeIn_callMixin below (content (by simp [Label.declaresMixin, isCall])) _ _
          · exact safeIn_declareMixin head span children
      | blockComment value buffered body =>
          dsimp only
          split
          · exact .bind (.write _) fun _ => .bind (content rfl) fun _ => .write _
          · exact .pure
      | namedBlock name mode => exact .fail (by simp)
      | filter name attributes body => exact .fail (by simp)

theorem safeIn_visitAll (below : deeper.Safe) (safe : BlockSafe calls block) :
    ∀ {nodes : List Node}, (calls = [] → Node.ConfinedAll nodes) →
      SafeIn calls (visitAll limit deeper block nodes)
  | [], _ => .pure
  | _ :: _, confined => by
      unfold visitAll
      exact .bind (safeIn_visit below safe fun none => (confined none).1) fun _ =>
        safeIn_visitAll below safe fun none => (confined none).2

end

end

/-- Bodies of mixins may hold anything, for they are rendered in calls. -/
theorem safe_levels (limit remaining : Nat) : (levels limit remaining).Safe := by
  induction remaining with
  | zero => exact fun render found => nomatch found
  | succ remaining ih =>
      rintro _ ⟨⟩ calls block safe call body
      refine safeIn_visitAll ih ?_ (by simp)
      rintro _ _ ⟨⟩
      exact safe

/-- Rendering a confined document never asks for the block of a call where there is no call. -/
theorem satisfies_render_confined {document : Document} (confined : Node.ConfinedAll document.nodes)
    (options : RenderOptions) :
    Satisfies (render document options) (fun _ => True)
      fun fault => fault.cause ≠ .callStackUnderflow := by
  intro events
  have visited : SafeIn [] (visitAll options.maxMixinDepth
      (levels options.maxMixinDepth options.maxMixinDepth) (pure ()) document.nodes) :=
    safeIn_visitAll (safe_levels _ _) (by simp [BlockSafe]) fun _ => confined
  have done := visited (Machine.start options.globals doctype events) rfl
  dsimp only [render]
  revert done
  cases visitAll options.maxMixinDepth (levels options.maxMixinDepth options.maxMixinDepth)
      (pure ()) document.nodes (Machine.start options.globals doctype events) with
  | ok value machine => exact fun _ => trivial
  | error fault machine => exact id

end Offside.Html
