import Offside.Proofs.Html.Context

/-!
# Rendering comes to an end

Rendering is described once more, as a loop that takes one task after another from a list. A visit
of a node may put new tasks in front: the nodes of a body, and what is to be done after them. The
loop does not know how many levels of calls are left. It compares the number of calls under way with
the limit, and that number goes down again while the block of a call is rendered, so it does not
bound how deep visits are nested.

The loop stops nevertheless, and the number of its steps is bounded by the size of the document and
the limit alone. The bound follows the levels: the block of a call is part of the code of the
caller, so it is smaller than the code that is left there, and a body that is visited one level
deeper may ask for it as often as it has nodes.
-/

namespace Offside

mutual

/-- The number of nodes that can be visited in a node, with the node itself. -/
def Node.size : Node → Nat
  | .leaf .. => 1
  | .branch _ _ children => Node.sizeAll children + 1
  | .file .. => 1

/-- The number of nodes that can be visited in a list. -/
def Node.sizeAll : List Node → Nat
  | [] => 0
  | node :: rest => node.size + Node.sizeAll rest

end

namespace Html

open Computing Rendering

/-! ### The loop -/

/-- Something to be done. -/
inductive Task where
  | visit (node : Node)
  | write (text : String)
  /-- Leave the body of a call that was entered with some number of frames and from some scope. -/
  | leave (frames scope : Nat)
  /-- Go back from the block of a call to the body that asked for it. -/
  | resume (call : Call) (block : List Node) (scope : Nat)

/-- What the loop works on. -/
structure LoopState where
  machine : Machine
  /-- The blocks of the calls under way, innermost first. -/
  blocks : List (List Node)
  tasks : List Task

/-- Where the loop is after some steps. -/
inductive Progress where
  | running (state : LoopState)
  | stopped (result : EStateM.Result (Diagnostic RenderFault) Machine Unit)

namespace LoopState

/-- Fail at a span. -/
def fail (state : LoopState) (span : Span) (cause : RenderFault) : Progress :=
  .stopped (.error ⟨cause, span, none⟩ state.machine)

/-- Put tasks in front of the others. -/
def first (state : LoopState) (tasks : List Task) : LoopState :=
  { state with tasks := tasks ++ state.tasks }

/-- Add a text to the page. -/
def write (state : LoopState) (text : String) : LoopState :=
  { state with machine := state.machine.write text }

/-- Write an element: its start tag now, its content and its end tag as tasks. -/
def element (state : LoopState) (name : String) (span : Span) (selfClosing : Bool)
    (attributes : List Attribute) (children : List Node) : Progress :=
  let opened := state.write (startTag name attributes)
  if selfClosing || voidElements.contains name then
    if children.any (!·.isBlankText) then opened.fail span (.voidElementWithContent name)
    else .running opened
  else
    .running (opened.first (children.map .visit ++ [.write (endTag name)]))

/-- Declare a mixin. -/
def declare (state : LoopState) (head : MixinHead) (span : Span) (body : List Node) : Progress :=
  match declared head span body with
  | .error fault => .stopped (.error fault state.machine)
  | .ok definition =>
      let noted := state.machine.note (.mixinDeclared head.name definition.parameters.length)
      .running { state with machine := noted.declare head.name definition }

/-- Enter a call, unless there are as many calls under way as are allowed. -/
def call (limit : Nat) (state : LoopState) (head : MixinHead) (span : Span)
    (block : List Node) : Progress :=
  let machine := state.machine
  match calleeIn machine.lookup? span (machine.mixins.lookup head.name) head with
  | .error fault => .stopped (.error fault machine)
  | .ok (body, bindings) =>
      if limit ≤ machine.calls.length then
        state.fail span (.recursionLimit limit)
      else
        .running
          { machine := machine.entered head.name bindings
            blocks := block :: state.blocks
            tasks := body.map .visit ++ .leave machine.frames.size machine.scope :: state.tasks }

/-- Put the innermost call aside and go to its block. -/
def block (state : LoopState) (span : Span) : Progress :=
  match state.machine.calls, state.blocks with
  | call :: _, block :: blocks =>
      .running
        { machine := state.machine.suspend call
          blocks := blocks
          tasks := block.map .visit ++ .resume call block state.machine.scope :: state.tasks }
  | _, _ => state.fail span .callStackUnderflow

/-- Go on with the value of a variable. -/
def withValue (state : LoopState) (name : String) (span : Span) (next : String → Progress) :
    Progress :=
  match valueIn state.machine.lookup? span name with
  | .ok value => next value
  | .error fault => .stopped (.error fault state.machine)

/-- Visit a node without a body. -/
def visitLeaf (limit : Nat) (state : LoopState) (span : Span) : Leaf → Progress
  | .mixinBlock => state.block span
  | .yieldSlot => .running state
  | .doctype _ => .running state
  | .text value _ => .running (state.write value)
  | .code expression buffered escaped _ =>
      if buffered then
        state.withValue expression span fun value => .running (state.write (written escaped value))
      else .running state
  | .comment value buffered =>
      if buffered then .running (state.write ("<!--" ++ value ++ "-->")) else .running state
  | .mixin head =>
      if head.isCall then state.call limit head span [] else state.declare head span []

/-- Visit a node. -/
def visit (limit : Nat) (state : LoopState) : Node → Progress
  | .leaf span content => state.visitLeaf limit span content
  | .branch span label children =>
      match label with
      | .block => .running (state.first (children.map .visit))
      | .tag head _ => state.element head.name span head.selfClosing head.attributes children
      | .variableTag head _ =>
          state.withValue head.expression span fun name =>
            state.element name span head.selfClosing head.attributes children
      | .mixin head _ =>
          if head.isCall then state.call limit head span children
          else state.declare head span children
      | .blockComment value buffered _ =>
          if buffered then
            .running ((state.write ("<!--" ++ value)).first
              (children.map .visit ++ [.write "-->"]))
          else .running state
      | .namedBlock .. | .filter .. => state.fail span (.unsupportedNode label.kind)
  | .file span use _ _ _ => state.fail span (.unsupportedNode use.kind)

/-- Do the first task. -/
def step (limit : Nat) (state : LoopState) : Progress :=
  match state.tasks with
  | [] => .stopped (.ok () state.machine)
  | task :: tasks =>
      let rest := { state with tasks := tasks }
      match task with
      | .visit node => rest.visit limit node
      | .write text => .running (rest.write text)
      | .leave frames scope =>
          .running ⟨state.machine.leave frames scope, state.blocks.tail, tasks⟩
      | .resume call block scope =>
          .running ⟨state.machine.resume call scope, block :: state.blocks, tasks⟩

/-- The state before anything is rendered. -/
def start (document : Document) (options : RenderOptions) (events : Array Event) : LoopState where
  machine := .start options.globals doctype events
  blocks := []
  tasks := document.nodes.map .visit

end LoopState

/-- Do some number of steps, or fewer if the loop stops. -/
def loop (limit : Nat) : (steps : Nat) → LoopState → Progress
  | 0, state => .running state
  | steps + 1, state =>
      match state.step limit with
      | .running next => loop limit steps next
      | .stopped result => .stopped result

/-- The page that is made of the last state of the loop, or its fault. -/
def finish : EStateM.Result (Diagnostic RenderFault) Machine Unit →
    EStateM.Result (Diagnostic RenderFault) (Array Event) String
  | .ok _ machine =>
      .ok machine.output
        (machine.events.push (.rendered machine.output.utf8ByteSize machine.mixins.length))
  | .error fault machine => .error fault machine.events

/-! ### The bound -/

/-- How many steps nodes of a size take, when the block of the innermost call takes at most `block`
steps and a body one level deeper as many as `body` tells from the steps of its block. -/
def nodesBound (body : Nat → Nat) (block : Nat) : (size : Nat) → Nat
  | 0 => 0
  | size + 1 =>
      let below := nodesBound body block size
      below + block + body below + 3

/-- How many steps a body takes when a number of further calls is allowed, and no body of the
document is larger than `size`. -/
def bodyBound (size : Nat) : (remaining : Nat) → (block : Nat) → Nat
  | 0, _ => 0
  | remaining + 1, block => nodesBound (bodyBound size remaining) block size

/-- How many steps it takes to render a document of a size. -/
def stepBound (limit size : Nat) : Nat :=
  nodesBound (bodyBound size limit) 0 size + 1

section

variable {body : Nat → Nat} {block : Nat}

theorem nodesBound_mono {size larger : Nat} (le : size ≤ larger) :
    nodesBound body block size ≤ nodesBound body block larger := by
  induction le with
  | refl => exact Nat.le_refl _
  | step _ ih =>
      simp only [nodesBound]
      omega

theorem nodesBound_mono_block (mono : ∀ {less more}, less ≤ more → body less ≤ body more)
    {larger : Nat} (le : block ≤ larger) (size : Nat) :
    nodesBound body block size ≤ nodesBound body larger size := by
  induction size with
  | zero => exact Nat.le_refl _
  | succ size ih =>
      have := mono ih
      simp only [nodesBound]
      omega

/-- Two lists take no more steps than both together are given. -/
theorem nodesBound_add_le (mono : ∀ {less more}, less ≤ more → body less ≤ body more)
    (left right : Nat) :
    nodesBound body block left + nodesBound body block right ≤
      nodesBound body block (left + right) := by
  induction right with
  | zero => simp [nodesBound]
  | succ right ih =>
      have below : nodesBound body block right ≤ nodesBound body block (left + right) := by omega
      have := mono below
      rw [← Nat.add_assoc]
      simp only [nodesBound]
      omega

theorem bodyBound_mono (size remaining : Nat) {less more : Nat} (le : less ≤ more) :
    bodyBound size remaining less ≤ bodyBound size remaining more := by
  induction remaining generalizing less more with
  | zero => exact Nat.le_refl _
  | succ remaining ih => exact nodesBound_mono_block ih le size

end

/-! ### The loop does what rendering does -/

theorem loop_of_running {limit : Nat} (steps : Nat) {state next : LoopState}
    (stepped : state.step limit = .running next) :
    loop limit (steps + 1) state = loop limit steps next := by
  simp only [loop, stepped]

theorem loop_of_stopped {limit steps : Nat} {state : LoopState}
    {result : EStateM.Result (Diagnostic RenderFault) Machine Unit}
    (stepped : state.step limit = .stopped result) :
    loop limit (steps + 1) state = .stopped result := by
  simp only [loop, stepped]

/-- No body of a declared mixin is larger than a size. -/
def Small (size : Nat) (machine : Machine) : Prop :=
  ∀ entry ∈ machine.mixins, Node.sizeAll entry.2.body ≤ size

theorem Small.declare {size : Nat} {machine : Machine} (small : Small size machine) (name : String)
    {definition : MixinDefinition} (fits : Node.sizeAll definition.body ≤ size) :
    Small size (machine.declare name definition) := by
  intro entry entry_mem
  simp only [Machine.declare, List.mem_cons, List.mem_filter] at entry_mem
  rcases entry_mem with rfl | ⟨old_mem, _⟩
  · exact fits
  · exact small entry old_mem

/-- From a state, the loop does some tasks in at most `bound` steps, and arrives where an action of
rendering does. Where the action fails, the loop stops with the same fault and the same events. -/
def Performs (limit size bound : Nat) (tasks : List Task) (action : Rendering Unit)
    (machine : Machine) (blocks : List (List Node)) : Prop :=
  ∀ rest,
    match action machine with
    | .ok _ after =>
        Small size after ∧ ∃ count ≤ bound, ∀ further,
          loop limit (count + further) ⟨machine, blocks, tasks ++ rest⟩ =
            loop limit further ⟨after, blocks, rest⟩
    | .error fault after =>
        ∃ count ≤ bound, ∃ stopped : Machine,
          loop limit count ⟨machine, blocks, tasks ++ rest⟩ = .stopped (.error fault stopped) ∧
            stopped.events = after.events

namespace Performs

variable {limit size bound : Nat} {task : Task} {tasks : List Task} {action : Rendering Unit}
  {machine : Machine} {blocks : List (List Node)}

theorem mono {larger : Nat} (le : bound ≤ larger)
    (performs : Performs limit size bound tasks action machine blocks) :
    Performs limit size larger tasks action machine blocks := by
  intro rest
  have performed := performs rest
  cases acted : action machine with
  | ok value after =>
      simp only [acted] at performed ⊢
      rcases performed with ⟨small, count, count_le, runs⟩
      exact ⟨small, count, by omega, runs⟩
  | error fault after =>
      simp only [acted] at performed ⊢
      rcases performed with ⟨count, count_le, stops⟩
      exact ⟨count, by omega, stops⟩

theorem nil (small : Small size machine) :
    Performs limit size 0 [] (pure ()) machine blocks := by
  intro rest
  refine ⟨small, 0, Nat.le_refl 0, fun further => ?_⟩
  rw [Nat.zero_add, List.nil_append]

/-- A task that is done in one step. -/
theorem instant (after : Machine)
    (stepped : ∀ rest, LoopState.step limit ⟨machine, blocks, task :: rest⟩ =
      .running ⟨after, blocks, rest⟩)
    (acted : action machine = .ok () after) (small : Small size after) :
    Performs limit size 1 [task] action machine blocks := by
  intro rest
  simp only [acted]
  refine ⟨small, 1, Nat.le_refl 1, fun further => ?_⟩
  rw [Nat.add_comm]
  exact loop_of_running _ (stepped rest)

theorem write (text : String) (small : Small size machine) :
    Performs limit size 1 [.write text] (Rendering.write text) machine blocks :=
  .instant _ (fun _ => rfl) rfl small

/-- A task that fails. -/
theorem faulty (fault : Diagnostic RenderFault) (stopped : Machine) {after : Machine}
    (stepped : ∀ rest, LoopState.step limit ⟨machine, blocks, task :: rest⟩ =
      .stopped (.error fault stopped))
    (acted : action machine = .error fault after) (events : stopped.events = after.events) :
    Performs limit size 1 [task] action machine blocks := by
  intro rest
  simp only [acted]
  exact ⟨1, Nat.le_refl 1, stopped, loop_of_stopped (stepped rest), events⟩

/-- A task that puts others in its place. -/
theorem expand (next : Machine) (inside : Rendering Unit)
    (stepped : ∀ rest, LoopState.step limit ⟨machine, blocks, task :: rest⟩ =
      .running ⟨next, blocks, tasks ++ rest⟩)
    (acted : action machine = inside next)
    (performs : Performs limit size bound tasks inside next blocks) :
    Performs limit size (bound + 1) [task] action machine blocks := by
  intro rest
  have performed := performs rest
  rw [acted]
  cases inner : inside next with
  | ok value after =>
      simp only [inner] at performed ⊢
      rcases performed with ⟨small, count, count_le, runs⟩
      refine ⟨small, count + 1, by omega, fun further => ?_⟩
      rw [Nat.add_right_comm]
      exact (loop_of_running _ (stepped rest)).trans (runs further)
  | error fault after =>
      simp only [inner] at performed ⊢
      rcases performed with ⟨count, count_le, stopped, stops, events⟩
      exact ⟨count + 1, by omega, stopped, (loop_of_running _ (stepped rest)).trans stops, events⟩

theorem seq {more : Nat} {others : List Task} {next : Rendering Unit}
    (restores : action.Restores) (first : Performs limit size bound tasks action machine blocks)
    (second : ∀ after, machine.SameContext after → Small size after →
      Performs limit size more others next after blocks) :
    Performs limit size (bound + more) (tasks ++ others) (action >>= fun _ => next) machine
      blocks := by
  intro rest
  have performed := first (others ++ rest)
  have kept := restores machine
  rw [List.append_assoc]
  cases acted : action machine with
  | error fault after =>
      simp only [acted] at performed
      rw [bind_of_error acted]
      rcases performed with ⟨count, count_le, stops⟩
      exact ⟨count, by omega, stops⟩
  | ok value after =>
      simp only [acted] at performed kept
      rw [bind_of_ok acted]
      rcases performed with ⟨small, count, count_le, runs⟩
      have performedNext := second after kept small rest
      cases actedNext : next after with
      | ok value last =>
          simp only [actedNext] at performedNext ⊢
          rcases performedNext with ⟨smallLast, countNext, countNext_le, runsNext⟩
          refine ⟨smallLast, count + countNext, by omega, fun further => ?_⟩
          rw [Nat.add_assoc, runs, runsNext]
      | error fault last =>
          simp only [actedNext] at performedNext ⊢
          rcases performedNext with ⟨countNext, countNext_le, stopped, stops, events⟩
          exact ⟨count + countNext, by omega, stopped, (runs countNext).trans stops, events⟩

/-- A task that changes the state for others, and a last task that changes it back. -/
theorem bracket {α : Type} {keep : Machine → α} {into : Machine → Machine}
    {back : α → Machine → Machine} {inside : Rendering Unit} {blocksInside : List (List Node)}
    (closing : Task) (restores : inside.Restores)
    (opens : ∀ rest, LoopState.step limit ⟨machine, blocks, task :: rest⟩ =
      .running ⟨into machine, blocksInside, tasks ++ closing :: rest⟩)
    (closes : ∀ after rest, (into machine).SameContext after →
      LoopState.step limit ⟨after, blocksInside, closing :: rest⟩ =
        .running ⟨back (keep machine) after, blocks, rest⟩)
    (events : ∀ kept after, (back kept after).events = after.events)
    (mixins : ∀ kept after, (back kept after).mixins = after.mixins)
    (performs : Performs limit size bound tasks inside (into machine) blocksInside) :
    Performs limit size (bound + 2) [task] (Rendering.bracket keep into back inside) machine
      blocks := by
  intro rest
  have performed := performs (closing :: rest)
  have kept := restores (into machine)
  simp only [Rendering.bracket]
  cases inner : inside (into machine) with
  | ok value after =>
      simp only [inner] at performed kept ⊢
      rcases performed with ⟨small, count, count_le, runs⟩
      refine ⟨?_, count + 2, by omega, fun further => ?_⟩
      · simpa only [Small, mixins] using small
      · have opened := loop_of_running (count + (further + 1)) (opens rest)
        rw [runs, loop_of_running _ (closes after rest kept)] at opened
        rw [← opened]
        congr 1
        omega
  | error fault after =>
      simp only [inner] at performed ⊢
      rcases performed with ⟨count, count_le, stopped, stops, same⟩
      exact ⟨count + 1, by omega, stopped, (loop_of_running _ (opens rest)).trans stops,
        same.trans (events _ _).symm⟩

end Performs

/-- The block of the innermost call is rendered by visits to its nodes, where the call stands. -/
def BlockPerforms (limit size bound : Nat) (block : Rendering Unit) :
    List Call → List (List Node) → Prop
  | [], [] => True
  | _ :: calls, given :: blocks =>
      ∀ machine : Machine, machine.calls = calls → Small size machine →
        Performs limit size bound (given.map .visit) block machine blocks
  | _, _ => False

/-- A body is rendered one level deeper by visits to its nodes, with a number of steps that depends
on that of the block. There is a deeper level as long as the limit allows for another call. -/
def Deeper.Performs (limit size : Nat) (body : Nat → Nat) (deeper : Deeper)
    (calls : List Call) : Prop :=
  match deeper with
  | none => limit ≤ calls.length
  | some render =>
      calls.length < limit ∧
        ∀ call given blocks block bound nodes machine, block.Restores →
          machine.calls = call :: calls → Small size machine →
          BlockPerforms limit size bound block (call :: calls) (given :: blocks) →
          Node.sizeAll nodes ≤ size →
          Html.Performs limit size (body bound) (nodes.map .visit) (render block nodes) machine
            (given :: blocks)

/-- What the visits in a call need of deeper levels and of the block of the call. -/
structure Performing (limit size : Nat) (body : Nat → Nat) (deeper : Deeper) (bound : Nat)
    (block : Rendering Unit) (calls : List Call) (blocks : List (List Node)) : Prop where
  mono : ∀ {less more}, less ≤ more → body less ≤ body more
  below : deeper.Performs limit size body calls
  restoresBelow : deeper.Restores
  performs : BlockPerforms limit size bound block calls blocks
  restores : block.Restores

section

variable {limit size bound : Nat} {body : Nat → Nat} {deeper : Deeper} {block : Rendering Unit}
  {calls : List Call} {blocks : List (List Node)} {machine : Machine}

theorem performs_lookup_bind {task : Task} {name : String} {span : Span}
    {next : String → Rendering Unit} (following : LoopState → String → Progress)
    (stepped : ∀ rest, LoopState.step limit ⟨machine, blocks, task :: rest⟩ =
      LoopState.withValue ⟨machine, blocks, rest⟩ name span (following ⟨machine, blocks, rest⟩))
    (performs : ∀ value,
      (∀ rest, LoopState.step limit ⟨machine, blocks, task :: rest⟩ =
        following ⟨machine, blocks, rest⟩ value) →
      Performs limit size (bound + 1) [task] (next value) machine blocks) :
    Performs limit size (bound + 1) [task] (lookup name span >>= next) machine blocks := by
  have looked := lookup_eq name span machine
  cases found : valueIn machine.lookup? span name with
  | error fault =>
      rw [found] at looked
      refine .mono (by omega) (.faulty fault machine (fun rest => ?_)
        (bind_of_error looked) rfl)
      simp only [stepped, LoopState.withValue, found]
  | ok value =>
      rw [found] at looked
      intro rest
      rw [bind_of_ok looked]
      refine performs value (fun rest => ?_) rest
      simp only [stepped, LoopState.withValue, found]

theorem performs_element {task : Task} {name : String} {span : Span} {selfClosing : Bool}
    {attributes : List Attribute} {children : List Node} {content : Rendering Unit}
    (stepped : ∀ rest, LoopState.step limit ⟨machine, blocks, task :: rest⟩ =
      LoopState.element ⟨machine, blocks, rest⟩ name span selfClosing attributes children)
    (small : Small size machine) (restores : content.Restores)
    (performs : ∀ opened : Machine, machine.SameContext opened → Small size opened →
      Performs limit size bound (children.map .visit) content opened blocks) :
    Performs limit size (bound + 2) [task]
      (element name span selfClosing attributes children content) machine blocks := by
  by_cases void : (selfClosing || voidElements.contains name) = true
  · by_cases filled : children.any (!·.isBlankText) = true
    · refine .mono (by omega) (.faulty ⟨.voidElementWithContent name, span, none⟩
        (machine.write (startTag name attributes)) (fun rest => ?_) ?_ rfl)
      · simp only [stepped, LoopState.element, void, filled, if_true]
        rfl
      · simp only [element, void, filled, if_true]
        rfl
    · refine .mono (by omega) (.instant (machine.write (startTag name attributes))
        (fun rest => ?_) ?_ small)
      · simp only [stepped, LoopState.element, void, filled, if_true, Bool.false_eq_true, if_false]
        rfl
      · simp only [element, void, filled, if_true, Bool.false_eq_true, if_false]
        rfl
  · refine .expand (machine.write (startTag name attributes))
      (content >>= fun _ => Rendering.write (endTag name)) (fun rest => ?_) ?_
      ((performs (machine.write (startTag name attributes)) ⟨rfl, rfl, rfl⟩ small).seq restores
        fun after _ small => .write (endTag name) small)
    · simp only [stepped, LoopState.element, void, Bool.false_eq_true, if_false]
      rfl
    · simp only [element, void, Bool.false_eq_true, if_false]
      rfl

theorem performs_declareMixin {task : Task} {head : MixinHead} {span : Span} (nodes : List Node)
    (stepped : ∀ rest, LoopState.step limit ⟨machine, blocks, task :: rest⟩ =
      LoopState.declare ⟨machine, blocks, rest⟩ head span nodes)
    (small : Small size machine) (fits : Node.sizeAll nodes ≤ size) :
    Performs limit size 1 [task] (declareMixin head span nodes) machine blocks := by
  have acted := declareMixin_eq head span nodes machine
  cases found : declared head span nodes with
  | error fault =>
      rw [found] at acted
      refine .faulty _ machine (fun rest => ?_) acted rfl
      simp only [stepped, LoopState.declare, found]
  | ok definition =>
      rw [found] at acted
      refine .instant _ (fun rest => ?_) acted
        (small.declare head.name (by rwa [body_eq_of_declared found]))
      simp only [stepped, LoopState.declare, found]

theorem performs_callMixin {task : Task} {head : MixinHead} {span : Span} (given : List Node)
    (stepped : ∀ rest, LoopState.step limit ⟨machine, blocks, task :: rest⟩ =
      LoopState.call limit ⟨machine, blocks, rest⟩ head span given)
    (below : deeper.Performs limit size body machine.calls) (restoresBelow : deeper.Restores)
    (restores : block.Restores) (small : Small size machine)
    (performs : ∀ caller : Machine, caller.calls = machine.calls → Small size caller →
      Performs limit size bound (given.map .visit) block caller blocks) :
    Performs limit size (body bound + 2) [task] (callMixin limit deeper head span block) machine
      blocks := by
  have acted := callMixin_eq limit deeper head span block machine
  cases found : calleeIn machine.lookup? span (machine.mixins.lookup head.name) head with
  | error fault =>
      rw [found] at acted
      refine .mono (by omega) (.faulty _ machine (fun rest => ?_) acted rfl)
      simp only [stepped, LoopState.call, found]
  | ok callee =>
      rcases callee with ⟨nodes, bindings⟩
      rw [found] at acted
      cases deeper with
      | none =>
          refine .mono (by omega) (.faulty ⟨.recursionLimit limit, span, none⟩ machine
            (fun rest => ?_) acted rfl)
          simp only [stepped, LoopState.call, found, show limit ≤ machine.calls.length from below,
            if_true, LoopState.fail]
      | some render =>
          rcases below with ⟨lt, rendered⟩
          have fits : Node.sizeAll nodes ≤ size := by
            rcases exists_body_eq_of_calleeIn found with ⟨entry, entry_mem, rfl⟩
            exact small entry entry_mem
          have inside := rendered ⟨machine.scope⟩ given blocks block bound nodes
            (machine.entered head.name bindings) restores rfl small performs fits
          have called : Performs limit size (body bound + 2) [task]
              (enterMixin limit (some render) head span block nodes bindings) machine blocks := by
            simp only [enterMixin]
            refine .bracket (.leave machine.frames.size machine.scope)
              (restoresBelow render rfl block restores nodes) (fun rest => ?_)
              (fun after rest same => rfl) (fun _ _ => rfl) (fun _ _ => rfl) inside
            simp only [stepped, LoopState.call, found, Nat.not_le.mpr lt, if_false]
          intro rest
          rw [acted]
          exact called rest

theorem performs_mixinBlock {task : Task} {span : Span}
    (stepped : ∀ rest, LoopState.step limit ⟨machine, blocks, task :: rest⟩ =
      LoopState.block ⟨machine, blocks, rest⟩ span)
    (restores : block.Restores) (small : Small size machine)
    (performs : BlockPerforms limit size bound block machine.calls blocks) :
    Performs limit size (bound + 2) [task] (mixinBlock span block) machine blocks := by
  have acted := mixinBlock_eq span block machine
  cases calls : machine.calls with
  | nil =>
      rw [calls] at acted
      refine .mono (by omega) (.faulty ⟨.callStackUnderflow, span, none⟩ machine
        (fun rest => ?_) acted rfl)
      simp only [stepped, LoopState.block, calls]
      rfl
  | cons call others =>
      rw [calls] at acted performs
      cases blocks with
      | nil => exact performs.elim
      | cons given outer =>
          have inside := performs (machine.suspend call) (by simp [Machine.suspend, calls]) small
          have shown : Performs limit size (bound + 2) [task]
              (Rendering.bracket (·.scope) (·.suspend call)
                (fun scope machine => machine.resume call scope) block) machine
              (given :: outer) := by
            refine .bracket (.resume call given machine.scope) restores
              (fun rest => ?_) (fun after rest same => rfl) (fun _ _ => rfl) (fun _ _ => rfl)
              inside
            simp only [stepped, LoopState.block, calls]
          intro rest
          rw [acted]
          exact shown rest

theorem performs_leafText {span : Span} {content : Leaf}
    (performing : Performing limit size body deeper bound block machine.calls blocks)
    (small : Small size machine) :
    Performs limit size (nodesBound body bound 1) [.visit (.leaf span content)]
      (leafText limit deeper block span content) machine blocks := by
  rcases performing with ⟨mono, below, restoresBelow, performs, restores⟩
  have enough : nodesBound body bound 1 = bound + body 0 + 3 := by simp [nodesBound]
  rw [enough]
  cases content with
  | mixinBlock =>
      exact .mono (by omega) (performs_mixinBlock (fun rest => rfl) restores small performs)
  | yieldSlot => exact .mono (by omega) (.instant _ (fun rest => rfl) rfl small)
  | doctype value => exact .mono (by omega) (.instant _ (fun rest => rfl) rfl small)
  | text value html => exact .mono (by omega) (.instant _ (fun rest => rfl) rfl small)
  | code expression buffered escaped inLine =>
      cases buffered with
      | false => exact .mono (by omega) (.instant _ (fun rest => rfl) rfl small)
      | true =>
          refine .mono (Nat.le_add_left (0 + 1) _) (performs_lookup_bind
            (fun state value => .running (state.write (written escaped value)))
            (fun rest => rfl) fun value stepped => ?_)
          exact .instant _ stepped rfl small
  | comment value buffered =>
      cases buffered with
      | false => exact .mono (by omega) (.instant _ (fun rest => rfl) rfl small)
      | true => exact .mono (by omega) (.instant _ (fun rest => rfl) rfl small)
  | mixin head =>
      cases called : head.isCall with
      | true =>
          simp only [leafText, called, if_true]
          refine .mono (by omega : body 0 + 2 ≤ _) (performs_callMixin []
            (fun rest => ?_) below restoresBelow restores_pure small
            fun caller _ small => .nil small)
          simp [LoopState.step, LoopState.visit, LoopState.visitLeaf, called]
      | false =>
          simp only [leafText, called, Bool.false_eq_true, if_false]
          refine .mono (by omega) (performs_declareMixin [] (fun rest => ?_) small
            (Nat.zero_le size))
          simp [LoopState.step, LoopState.visit, LoopState.visitLeaf, called]

/-- A branch takes the steps of its nodes and a few of its own, and those of the body or of the
block where its nodes end up. -/
theorem performs_branch
    (performing : Performing limit size body deeper bound block calls blocks) (span : Span)
    (label : Label) {children : List Node} {machine : Machine} (same : machine.calls = calls)
    (small : Small size machine) (fits : Node.sizeAll children ≤ size)
    (content : ∀ machine : Machine, machine.calls = calls → Small size machine →
      Performs limit size (nodesBound body bound (Node.sizeAll children)) (children.map .visit)
        (visitAll limit deeper block children) machine blocks) :
    Performs limit size (nodesBound body bound (Node.size (.branch span label children)))
      [.visit (.branch span label children)]
      (visit limit deeper block (.branch span label children)) machine blocks := by
  have restoresContent : (visitAll limit deeper block children).Restores :=
    restores_visitAll performing.restoresBelow performing.restores children
  have enough : nodesBound body bound (Node.size (.branch span label children)) =
      nodesBound body bound (Node.sizeAll children) + bound +
        body (nodesBound body bound (Node.sizeAll children)) + 3 := rfl
  rw [enough]
  cases label with
  | block =>
      simp only [visit]
      exact .mono (by omega) (.expand _ _ (fun rest => rfl) rfl (content machine same small))
  | tag head bodySpan =>
      simp only [visit]
      exact .mono (by omega) (performs_element (fun rest => rfl) small restoresContent
        fun opened kept small => content opened (kept.calls.trans same) small)
  | variableTag head bodySpan =>
      simp only [visit]
      refine .mono (by omega) (performs_lookup_bind
        (fun state name => state.element name span head.selfClosing head.attributes children)
        (fun rest => rfl) fun name stepped => performs_element stepped small restoresContent
          fun opened kept small => content opened (kept.calls.trans same) small)
  | mixin head bodySpan =>
      have here : Performing limit size body deeper bound block machine.calls blocks :=
        same ▸ performing
      cases called : head.isCall with
      | true =>
          simp only [visit, called, if_true]
          -- The block of the call is in this node, so what is left of the node bounds it.
          refine .mono (by omega) (performs_callMixin children (fun rest => ?_)
            here.below here.restoresBelow restoresContent small
            fun caller kept small => content caller (kept.trans same) small)
          simp [LoopState.step, LoopState.visit, called]
      | false =>
          simp only [visit, called, Bool.false_eq_true, if_false]
          refine .mono (by omega) (performs_declareMixin children (fun rest => ?_) small fits)
          simp [LoopState.step, LoopState.visit, called]
  | blockComment value buffered bodySpan =>
      cases buffered with
      | false => exact .mono (by omega) (.instant _ (fun rest => rfl) rfl small)
      | true =>
          have opened : (machine.write ("<!--" ++ value)).calls = calls := same
          refine .mono (by omega) (.expand (machine.write ("<!--" ++ value)) _
            (fun rest => rfl) rfl
            ((content (machine.write ("<!--" ++ value)) opened small).seq
              restoresContent fun after _ small => .write "-->" small))
  | namedBlock name mode =>
      exact .mono (by omega) (.faulty _ machine (fun rest => rfl) rfl rfl)
  | filter name attributes bodySpan =>
      exact .mono (by omega) (.faulty _ machine (fun rest => rfl) rfl rfl)

mutual

theorem performs_visit
    (performing : Performing limit size body deeper bound block calls blocks) (node : Node)
    (machine : Machine) (same : machine.calls = calls) (small : Small size machine)
    (fits : node.size ≤ size) :
    Performs limit size (nodesBound body bound node.size) [.visit node]
      (visit limit deeper block node) machine blocks := by
  match node with
  | .leaf span content =>
      have here : Performing limit size body deeper bound block machine.calls blocks :=
        same ▸ performing
      exact performs_leafText here small
  | .file span use reference loaded children =>
      refine .mono ?_ (.faulty _ machine (fun rest => rfl) rfl rfl)
      simp only [Node.size, nodesBound]
      omega
  | .branch span label children =>
      have fitsChildren : Node.sizeAll children ≤ size := by
        simp only [Node.size] at fits
        omega
      exact performs_branch performing span label same small fitsChildren
        fun machine same small => performs_visitAll performing children machine same small
          fitsChildren

theorem performs_visitAll
    (performing : Performing limit size body deeper bound block calls blocks) (nodes : List Node)
    (machine : Machine) (same : machine.calls = calls) (small : Small size machine)
    (fits : Node.sizeAll nodes ≤ size) :
    Performs limit size (nodesBound body bound (Node.sizeAll nodes)) (nodes.map .visit)
      (visitAll limit deeper block nodes) machine blocks := by
  match nodes with
  | [] => exact .nil small
  | node :: rest =>
      simp only [Node.sizeAll] at fits
      have first := performs_visit performing node machine same small (by omega)
      refine .mono (nodesBound_add_le performing.mono node.size (Node.sizeAll rest))
        (first.seq (restores_visit performing.restoresBelow performing.restores node)
          fun after kept small => ?_)
      exact performs_visitAll performing rest after (kept.calls.trans same) small (by omega)

end

end

/-- With as many levels left as calls are still allowed, a body takes as many steps as the bound
for these levels says. -/
theorem performs_levels {limit size remaining : Nat} {calls : List Call}
    (depth : remaining + calls.length = limit) :
    Deeper.Performs limit size (bodyBound size remaining) (levels limit remaining) calls := by
  induction remaining generalizing calls with
  | zero =>
      change limit ≤ calls.length
      omega
  | succ remaining ih =>
      refine ⟨by omega, fun call given blocks block bound nodes machine restores same small
        performs fits => ?_⟩
      have inside : remaining + (call :: calls).length = limit := by
        simp only [List.length_cons]
        omega
      exact .mono (nodesBound_mono fits)
        (performs_visitAll
          ⟨bodyBound_mono size remaining, ih inside, restores_levels limit remaining, performs,
            restores⟩
          nodes machine same small fits)

/-- Rendering comes to an end: after a number of steps that is bounded in the size of the document
and the limit, the loop stops, and with the result that rendering has. Each visit is one step. -/
theorem exists_loop_eq_stopped (document : Document) (options : RenderOptions)
    (events : Array Event) :
    ∃ steps ≤ stepBound options.maxMixinDepth (Node.sizeAll document.nodes),
      ∃ result,
        loop options.maxMixinDepth steps (.start document options events) = .stopped result ∧
          render document options events = finish result := by
  have performing : Performing options.maxMixinDepth (Node.sizeAll document.nodes)
      (bodyBound (Node.sizeAll document.nodes) options.maxMixinDepth)
      (levels options.maxMixinDepth options.maxMixinDepth) 0 (pure ()) [] [] :=
    ⟨bodyBound_mono _ _, performs_levels (Nat.add_zero options.maxMixinDepth),
      restores_levels _ _, trivial, restores_pure⟩
  have performed := performs_visitAll performing document.nodes
    (Machine.start options.globals doctype events) rfl (fun entry entry_mem => by cases entry_mem)
    (Nat.le_refl _) []
  rw [List.append_nil] at performed
  unfold render stepBound
  dsimp only
  cases rendered : visitAll options.maxMixinDepth
    (levels options.maxMixinDepth options.maxMixinDepth) (pure ()) document.nodes
    (Machine.start options.globals doctype events) with
  | ok value after =>
      simp only [rendered] at performed
      rcases performed with ⟨_, steps, steps_le, runs⟩
      exact ⟨steps + 1, by omega, .ok () after, runs 1, rfl⟩
  | error fault after =>
      simp only [rendered] at performed
      rcases performed with ⟨steps, steps_le, stopped, stops, same⟩
      exact ⟨steps, by omega, .error fault stopped, stops, by rw [finish, same]⟩

end Html

end Offside
