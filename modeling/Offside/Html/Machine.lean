import Offside.Document.Basic
import Offside.Event
import Offside.Html.Argument
import Offside.Html.Escape
import Offside.Html.Fault

/-!
# The rendering machine

While a document is written as a page, variables live in frames. Each call of a mixin adds a frame
for its parameters, whose parent is the frame in which the call stands. The calls that are under
way form a stack; rendering the block of the innermost call goes back to the frame of its caller.
-/

namespace Offside.Html

/-- The variables of one scope, and the frame in which names are looked up next. -/
structure Frame where
  bindings : List (String × String)
  parent : Option Nat
deriving Inhabited

/-- A call that is under way: the frame in which it stands. -/
structure Call where
  caller : Nat

/-- A declared mixin. -/
structure MixinDefinition where
  parameters : List String
  body : List Node

/-- The state of rendering. -/
structure Machine where
  output : String
  /-- The declared mixins by name; each name occurs once. -/
  mixins : List (String × MixinDefinition)
  frames : Array Frame
  /-- The calls that are under way, innermost first. -/
  calls : List Call
  /-- The current frame. -/
  scope : Nat
  events : Array Event

namespace Machine

/-- The state before anything is rendered. -/
def start (globals : List (String × String)) (output : String) (events : Array Event) :
    Machine where
  output := output
  mixins := []
  frames := #[⟨globals, none⟩]
  calls := []
  scope := 0
  events := events

/-- Look a name up in a frame and then in its ancestors, over at most some number of frames. -/
def find? (frames : Array Frame) (name : String) : (steps : Nat) → (scope : Nat) → Option String
  | 0, _ => none
  | steps + 1, scope => do
      let frame ← frames[scope]?
      match frame.bindings.lookup name with
      | some value => some value
      | none =>
          let parent ← frame.parent
          find? frames name steps parent

/-- The value of a variable in the current scope. -/
def lookup? (machine : Machine) (name : String) : Option String :=
  find? machine.frames name machine.frames.size machine.scope

/-- Add a text to the page. -/
def write (machine : Machine) (text : String) : Machine :=
  { machine with output := machine.output ++ text }

/-- Note an event. -/
def note (machine : Machine) (event : Event) : Machine :=
  { machine with events := machine.events.push event }

/-- Declare a mixin; an earlier one of the same name is forgotten. -/
def declare (machine : Machine) (name : String) (definition : MixinDefinition) : Machine :=
  { machine with
    mixins := (name, definition) :: machine.mixins.filter fun (other, _) => other ≠ name }

/-- Enter a mixin: a new frame for the parameters, on top of the current scope. -/
def enter (machine : Machine) (bindings : List (String × String)) : Machine :=
  { machine with
    frames := machine.frames.push ⟨bindings, some machine.scope⟩
    calls := ⟨machine.scope⟩ :: machine.calls
    scope := machine.frames.size }

/-- Leave a mixin that was entered with some number of frames and from some scope. -/
def leave (machine : Machine) (frames scope : Nat) : Machine :=
  { machine with
    frames := machine.frames.shrink frames
    calls := machine.calls.tail
    scope := scope }

/-- Go back to the caller of the innermost call. -/
def suspend (machine : Machine) (call : Call) : Machine :=
  { machine with calls := machine.calls.tail, scope := call.caller }

/-- Return to a call from its caller. -/
def resume (machine : Machine) (call : Call) (scope : Nat) : Machine :=
  { machine with calls := call :: machine.calls, scope := scope }

end Machine

/-- A computation of the machine. The state is kept when it fails. -/
abbrev Rendering := EStateM (Diagnostic RenderFault) Machine

namespace Rendering

/-- Fail at a span. -/
def fail {α : Type} (span : Span) (cause : RenderFault) : Rendering α :=
  throw ⟨cause, span, none⟩

/-- Add a text to the page. -/
def write (text : String) : Rendering Unit :=
  modify (·.write text)

/-- The value of a variable in the current scope. -/
def lookup (name : String) (span : Span) : Rendering String := do
  match (← get).lookup? name with
  | some value => return value
  | none => fail span (.undefinedVariable name)

/-- Do something in a changed state, and change the state back afterwards, also after a failure.
What the way back needs to know of the state before is kept. -/
def bracket {α : Type} (keep : Machine → α) (into : Machine → Machine)
    (back : α → Machine → Machine) (action : Rendering Unit) : Rendering Unit := fun machine =>
  let kept := keep machine
  match action (into machine) with
  | .ok _ after => .ok () (back kept after)
  | .error fault after => .error fault (back kept after)

end Rendering

end Offside.Html
