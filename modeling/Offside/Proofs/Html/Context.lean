import Offside.Proofs.Html.Closure

/-!
# What rendering leaves as it was

Rendering a node adds to the page and may declare mixins. The frames, the calls under way and the
current frame are afterwards what they were before, whether the node was rendered or failed: a call
drops the frame that it added, and a block that is rendered for a call gives the call back.
-/

namespace Offside.Html

open Computing

namespace Machine

/-- Two states with the same frames, the same calls under way and the same current frame. -/
structure SameContext (before after : Machine) : Prop where
  frames : after.frames = before.frames
  calls : after.calls = before.calls
  scope : after.scope = before.scope

/-- The state inside of a call that is entered. -/
def entered (machine : Machine) (name : String) (bindings : List (String × String)) : Machine :=
  (machine.enter bindings).note (.mixinCalled name (machine.enter bindings).calls.length)

namespace SameContext

variable {first second third : Machine}

theorem refl (machine : Machine) : machine.SameContext machine :=
  ⟨rfl, rfl, rfl⟩

theorem trans (left : first.SameContext second) (right : second.SameContext third) :
    first.SameContext third :=
  ⟨right.frames.trans left.frames, right.calls.trans left.calls, right.scope.trans left.scope⟩

/-- A call drops the frame and the call that it added. -/
theorem leave_entered {machine : Machine} {name : String} {bindings : List (String × String)}
    (same : (machine.entered name bindings).SameContext second) :
    machine.SameContext (second.leave machine.frames.size machine.scope) := by
  refine ⟨?_, ?_, rfl⟩
  · simp [leave, same.frames, entered, enter, note]
  · simp [leave, same.calls, entered, enter, note]

/-- A call that was put aside for its block is put back. -/
theorem resume_suspend {machine : Machine} {call : Call} {others : List Call}
    (calls : machine.calls = call :: others) (same : (machine.suspend call).SameContext second) :
    machine.SameContext (second.resume call machine.scope) := by
  refine ⟨same.frames, ?_, rfl⟩
  simp [resume, same.calls, suspend, calls]

end SameContext

end Machine

/-! ### What only reads the state -/

namespace Rendering

/-- The value, or the fault. -/
def require {α : Type} : Except (Diagnostic RenderFault) α → Rendering α
  | .ok value => return value
  | .error fault => throw fault

end Rendering

open Rendering

theorem lookup_eq (name : String) (span : Span) (machine : Machine) :
    lookup name span machine = require (valueIn machine.lookup? span name) machine := by
  refine get_bind_eq.trans ?_
  unfold valueIn
  cases machine.lookup? name <;> rfl

theorem argumentValue_eq (argument : List Char) (span : Span) (machine : Machine) :
    argumentValue argument span machine =
      require (argumentIn machine.lookup? span argument) machine := by
  unfold argumentValue argumentIn
  cases Text.literal? argument with
  | some value => rfl
  | none =>
      dsimp only
      split
      · rfl
      · split
        · exact lookup_eq _ span machine
        · rfl

theorem bindArguments_eq (span : Span) (pairs : List (String × List Char))
    (bindings : List (String × String)) (machine : Machine) :
    bindArguments span pairs bindings machine =
      require (bindingsIn machine.lookup? span pairs bindings) machine := by
  induction pairs generalizing bindings with
  | nil => rfl
  | cons pair rest ih =>
      have argument := argumentValue_eq pair.2 span machine
      simp only [bindArguments, bindingsIn]
      cases value : argumentIn machine.lookup? span pair.2 with
      | error fault =>
          rw [value] at argument
          exact bind_of_error argument
      | ok value =>
          rw [value] at argument
          exact (bind_of_ok argument).trans (ih _)

theorem declareMixin_eq (head : MixinHead) (span : Span) (body : List Node) (machine : Machine) :
    declareMixin head span body machine =
      match declared head span body with
      | .error fault => .error fault machine
      | .ok definition =>
          .ok () ((machine.note (.mixinDeclared head.name definition.parameters.length)).declare
            head.name definition) := by
  unfold declareMixin declared
  dsimp only
  cases List.find? (!isName ·) (listItems (head.arguments.getD "").toList) with
  | some parameter => rfl
  | none =>
      simp only [List.length_map]
      rfl

/-- How a call goes on when its callee is found: the body is rendered one level deeper, in a state
that is entered before and left afterwards. -/
def enterMixin (limit : Nat) (deeper : Deeper) (head : MixinHead) (span : Span)
    (block : Rendering Unit) (body : List Node) (bindings : List (String × String)) :
    Rendering Unit :=
  match deeper with
  | none => fail span (.recursionLimit limit)
  | some deeper =>
      bracket (fun machine => (machine.frames.size, machine.scope))
        (fun machine => machine.entered head.name bindings)
        (fun (frames, scope) machine => machine.leave frames scope)
        (deeper block body)

theorem callMixin_eq (limit : Nat) (deeper : Deeper) (head : MixinHead) (span : Span)
    (block : Rendering Unit) (machine : Machine) :
    callMixin limit deeper head span block machine =
      match calleeIn machine.lookup? span (machine.mixins.lookup head.name) head with
      | .error fault => .error fault machine
      | .ok (body, bindings) => enterMixin limit deeper head span block body bindings machine := by
  refine get_bind_eq.trans ?_
  unfold calleeIn
  dsimp only
  cases machine.mixins.lookup head.name with
  | none => rfl
  | some definition =>
      dsimp only
      split
      · rfl
      · have bound := bindArguments_eq span
          (definition.parameters.zip (listItems (head.arguments.getD "").toList)) [] machine
        cases values : bindingsIn machine.lookup? span
          (definition.parameters.zip (listItems (head.arguments.getD "").toList)) [] with
        | error fault =>
            rw [values] at bound
            exact bind_of_error bound
        | ok bindings =>
            rw [values] at bound
            refine (bind_of_ok bound).trans ?_
            cases deeper <;> rfl

/-- The body that a call renders is that of a declared mixin. -/
theorem exists_body_eq_of_calleeIn {environment : Environment} {span : Span}
    {mixins : List (String × MixinDefinition)} {head : MixinHead} {nodes : List Node}
    {bindings : List (String × String)}
    (found : calleeIn environment span (mixins.lookup head.name) head = .ok (nodes, bindings)) :
    ∃ entry ∈ mixins, entry.2.body = nodes := by
  unfold calleeIn at found
  cases known : mixins.lookup head.name with
  | none => simp [known] at found
  | some definition =>
      rcases List.lookup_eq_some_iff.mp known with ⟨before, after, rfl, _⟩
      refine ⟨(head.name, definition), by simp, ?_⟩
      simp only [known] at found
      split at found
      · cases found
      · cases values : bindingsIn environment span
          (definition.parameters.zip (listItems (head.arguments.getD "").toList)) [] with
        | error fault => simp [values, Except.map] at found
        | ok bound =>
            simp only [values, Except.map, Except.ok.injEq, Prod.mk.injEq] at found
            exact found.1

/-- Mixins of other names are kept when one is forgotten. -/
theorem lookup_filter_ne (entries : List (String × MixinDefinition)) {name other : String}
    (ne : other ≠ name) :
    (entries.filter fun (entry, _) => entry ≠ name).lookup other = entries.lookup other := by
  induction entries with
  | nil => rfl
  | cons entry rest ih =>
      rcases entry with ⟨key, definition⟩
      by_cases same : key = name
      · subst same
        have skipped : (other == key) = false := beq_eq_false_iff_ne.mpr ne
        simpa [List.filter_cons, List.lookup_cons, skipped] using ih
      · simp only [ne_eq, same, not_false_eq_true, decide_true, List.filter_cons_of_pos,
          List.lookup_cons]
        split
        · rfl
        · exact ih

/-- A declared mixin has the body of its declaration. -/
theorem body_eq_of_declared {head : MixinHead} {span : Span} {nodes : List Node}
    {definition : MixinDefinition} (found : declared head span nodes = .ok definition) :
    definition.body = nodes := by
  unfold declared at found
  dsimp only at found
  split at found
  · cases found
  · cases found
    rfl

theorem mixinBlock_eq (span : Span) (block : Rendering Unit) (machine : Machine) :
    mixinBlock span block machine =
      match machine.calls with
      | [] => .error ⟨.callStackUnderflow, span, none⟩ machine
      | call :: _ =>
          bracket (·.scope) (·.suspend call) (fun scope machine => machine.resume call scope) block
            machine := by
  change (match machine.calls with
    | [] => fail span .callStackUnderflow
    | call :: _ => _ : Rendering Unit) machine = _
  cases machine.calls <;> rfl

/-! ### What restores the context -/

namespace Rendering

/-- The computation leaves the context as it was, also when it fails. -/
def Restores (action : Rendering Unit) : Prop :=
  ∀ machine : Machine, machine.SameContext (final (action machine))

theorem restores_pure : Restores (pure ()) :=
  fun machine => .refl machine

theorem restores_fail (span : Span) (cause : RenderFault) : Restores (fail span cause) :=
  fun machine => .refl machine

theorem restores_write (text : String) : Restores (write text) :=
  fun _ => ⟨rfl, rfl, rfl⟩

theorem Restores.seq {action next : Rendering Unit} (first : Restores action)
    (second : Restores next) : Restores (action >>= fun _ => next) := by
  intro machine
  have kept := first machine
  cases acted : action machine with
  | ok value middle =>
      rw [acted] at kept
      rw [bind_of_ok acted]
      exact kept.trans (second middle)
  | error fault middle =>
      rw [acted] at kept
      rw [bind_of_error acted]
      exact kept

/-- A look at a variable changes nothing. -/
theorem restores_lookup_bind {name : String} {span : Span} {next : String → Rendering Unit}
    (each : ∀ value, Restores (next value)) : Restores (lookup name span >>= next) := by
  intro machine
  have looked := lookup_eq name span machine
  cases found : valueIn machine.lookup? span name with
  | error fault =>
      rw [found] at looked
      rw [bind_of_error looked]
      exact .refl machine
  | ok value =>
      rw [found] at looked
      rw [bind_of_ok looked]
      exact each value machine

end Rendering

theorem restores_element {name : String} {span : Span} {selfClosing : Bool}
    {attributes : List Attribute} {children : List Node} {content : Rendering Unit}
    (restores : Restores content) :
    Restores (element name span selfClosing attributes children content) := by
  refine (restores_write _).seq ?_
  split
  · split
    · exact restores_fail span _
    · exact restores_pure
  · exact restores.seq (restores_write _)

theorem restores_declareMixin (head : MixinHead) (span : Span) (body : List Node) :
    Restores (declareMixin head span body) := by
  intro machine
  rw [declareMixin_eq]
  cases declared head span body with
  | error fault => exact .refl machine
  | ok definition => exact ⟨rfl, rfl, rfl⟩

/-- What is rendered one level deeper restores the context if the block does. -/
def Deeper.Restores (deeper : Deeper) : Prop :=
  ∀ render ∈ deeper, ∀ block, Rendering.Restores block →
    ∀ body, Rendering.Restores (render block body)

theorem restores_enterMixin {limit : Nat} {deeper : Deeper} {head : MixinHead} {span : Span}
    {block : Rendering Unit} {body : List Node} {bindings : List (String × String)}
    (below : deeper.Restores) (restores : Restores block) :
    Restores (enterMixin limit deeper head span block body bindings) := by
  cases deeper with
  | none => exact restores_fail span _
  | some render =>
      intro machine
      have kept := below render rfl block restores body (machine.entered head.name bindings)
      simp only [enterMixin, bracket]
      cases acted : render block body (machine.entered head.name bindings) with
      | ok value after =>
          rw [acted] at kept
          exact Machine.SameContext.leave_entered kept
      | error fault after =>
          rw [acted] at kept
          exact Machine.SameContext.leave_entered kept

theorem restores_callMixin {limit : Nat} {deeper : Deeper} {head : MixinHead} {span : Span}
    {block : Rendering Unit} (below : deeper.Restores) (restores : Restores block) :
    Restores (callMixin limit deeper head span block) := by
  intro machine
  rw [callMixin_eq]
  cases calleeIn machine.lookup? span (machine.mixins.lookup head.name) head with
  | error fault => exact .refl machine
  | ok callee => exact restores_enterMixin below restores machine

theorem restores_mixinBlock {span : Span} {block : Rendering Unit} (restores : Restores block) :
    Restores (mixinBlock span block) := by
  intro machine
  rw [mixinBlock_eq]
  cases calls : machine.calls with
  | nil => exact .refl machine
  | cons call others =>
      have kept := restores (machine.suspend call)
      simp only [bracket]
      cases acted : block (machine.suspend call) with
      | ok value after =>
          rw [acted] at kept
          exact Machine.SameContext.resume_suspend calls kept
      | error fault after =>
          rw [acted] at kept
          exact Machine.SameContext.resume_suspend calls kept

section

variable {limit : Nat} {deeper : Deeper} {block : Rendering Unit}

theorem restores_leafText (below : deeper.Restores) (restores : Restores block) (span : Span)
    (content : Leaf) : Restores (leafText limit deeper block span content) := by
  cases content with
  | mixinBlock => exact restores_mixinBlock restores
  | yieldSlot => exact restores_pure
  | text value html => exact restores_write value
  | code expression buffered escaped inLine =>
      simp only [leafText]
      split
      · exact restores_lookup_bind fun value => restores_write _
      · exact restores_pure
  | comment value buffered =>
      simp only [leafText]
      split
      · exact restores_write _
      · exact restores_pure
  | doctype value => exact restores_pure
  | mixin head =>
      simp only [leafText]
      split
      · exact restores_callMixin below restores_pure
      · exact restores_declareMixin head span []

mutual

/-- A visit leaves the frames, the calls and the current frame as they were. -/
theorem restores_visit (below : deeper.Restores) (restores : Restores block) (node : Node) :
    Restores (visit limit deeper block node) := by
  match node with
  | .leaf span content => exact restores_leafText below restores span content
  | .file span use reference loaded children => exact restores_fail span _
  | .branch span label children =>
      have content := restores_visitAll below restores children
      cases label with
      | block => simpa only [visit] using content
      | tag head body =>
          simp only [visit]
          exact restores_element content
      | variableTag head body =>
          simp only [visit]
          exact restores_lookup_bind fun name => restores_element content
      | mixin head body =>
          simp only [visit]
          split
          · exact restores_callMixin below content
          · exact restores_declareMixin head span children
      | blockComment value buffered body =>
          simp only [visit]
          split
          · exact (restores_write _).seq (content.seq (restores_write _))
          · exact restores_pure
      | namedBlock name mode => exact restores_fail span _
      | filter name attributes body => exact restores_fail span _

theorem restores_visitAll (below : deeper.Restores) (restores : Restores block)
    (nodes : List Node) : Restores (visitAll limit deeper block nodes) := by
  match nodes with
  | [] => exact restores_pure
  | node :: rest =>
      simp only [visitAll]
      exact (restores_visit below restores node).seq (restores_visitAll below restores rest)

end

end

theorem restores_levels (limit remaining : Nat) : Deeper.Restores (levels limit remaining) := by
  induction remaining with
  | zero => exact fun render found => nomatch found
  | succ remaining ih =>
      intro render found block restores body
      rcases Option.some.inj found with rfl
      exact restores_visitAll ih restores body

end Offside.Html
