import Mathlib.Algebra.Order.BigOperators.Group.List
import Mathlib.Algebra.Order.Group.Nat
import Offside.Proofs.Html.Refinement
import Offside.Proofs.Html.Termination

/-!
# Frames and scopes while a page is rendered

The loop passes through every state of rendering: in front of each node stands the state in which
it is visited, with the calls that are under way there. In all of these states a frame comes after
its parent, and the current frame and those of the callers exist. So a look-up climbs from frame to
frame, ends at one without a parent, and never leaves the list of frames.

What holds of the frames and calls of a state does not say what becomes of them when a call is left
or resumed. That is in the tasks which are put aside: each of them fits to the frames and calls with
which it will be taken up again.
-/

namespace Offside.Html

open Computing Rendering

/-! ### Valid frames -/

/-- Parents come before their children, and the current frame and the frames of the callers
exist. -/
structure Machine.Valid (machine : Machine) : Prop where
  ordered : Ordered machine.frames
  scope_lt : machine.scope < machine.frames.size
  caller_lt : ∀ call ∈ machine.calls, call.caller < machine.frames.size

namespace Machine.Valid

variable {machine after : Machine}

theorem of_sameContext (valid : machine.Valid) (same : machine.SameContext after) :
    after.Valid := by
  rcases same with ⟨frames, calls, scope⟩
  refine ⟨?_, ?_, ?_⟩
  · rw [frames]
    exact valid.ordered
  · rw [frames, scope]
    exact valid.scope_lt
  · rw [frames, calls]
    exact valid.caller_lt

theorem start (globals : List (String × String)) (output : String) (events : Array Event) :
    (Machine.start globals output events).Valid := by
  refine ⟨fun index frame parent found above => ?_, Nat.zero_lt_one, fun call inside => ?_⟩
  · have root := Array.mem_of_getElem? found
    simp only [Machine.start, List.mem_toArray, List.mem_singleton] at root
    subst root
    cases above
  · cases inside

theorem entered (valid : machine.Valid) (name : String) (bindings : List (String × String)) :
    (machine.entered name bindings).Valid := by
  refine ⟨ordered_push valid.ordered bindings valid.scope_lt, ?_, fun call inside => ?_⟩
  · simp [Machine.entered, Machine.enter, Machine.note]
  · simp only [Machine.entered, Machine.enter, Machine.note, List.mem_cons,
      Array.size_push] at inside ⊢
    rcases inside with rfl | inside
    · exact Nat.lt_succ_of_lt valid.scope_lt
    · exact Nat.lt_succ_of_lt (valid.caller_lt call inside)

theorem leave (valid : machine.Valid) {frames scope : Nat} (le : frames ≤ machine.frames.size)
    (scope_lt : scope < frames) (caller_lt : ∀ call ∈ machine.calls.tail, call.caller < frames) :
    (machine.leave frames scope).Valid := by
  have size : (machine.frames.shrink frames).size = frames := by
    rw [Array.size_shrink]
    exact Nat.min_eq_left le
  refine ⟨fun index frame parent found above => ?_, ?_, fun call inside => ?_⟩
  · have kept : machine.frames[index]? = some frame := by
      simp only [Machine.leave, Array.shrink_eq_take, Array.take_eq_extract,
        Array.getElem?_extract, Nat.zero_add] at found
      split at found
      · exact found
      · cases found
    exact valid.ordered index frame parent kept above
  · simpa only [Machine.leave, size] using scope_lt
  · simpa only [Machine.leave, size] using caller_lt call inside

theorem suspend (valid : machine.Valid) {call : Call} {others : List Call}
    (calls : machine.calls = call :: others) : (machine.suspend call).Valid := by
  refine ⟨valid.ordered, ?_, fun other inside => ?_⟩
  · exact valid.caller_lt call (calls ▸ List.mem_cons_self)
  · exact valid.caller_lt other (List.mem_of_mem_tail inside)

theorem resume (valid : machine.Valid) {call : Call} {scope : Nat}
    (caller_lt : call.caller < machine.frames.size) (scope_lt : scope < machine.frames.size) :
    (machine.resume call scope).Valid := by
  refine ⟨valid.ordered, scope_lt, fun other inside => ?_⟩
  rcases List.mem_cons.mp inside with rfl | inside
  · exact caller_lt
  · exact valid.caller_lt other inside

end Machine.Valid

/-! ### Looking names up -/

/-- The frames in which names are looked up from a scope: its own, that of its parent, and so on up
to one without a parent. Each of them exists. -/
inductive Climb (frames : Array Frame) : (scope : Nat) → List Frame → Prop where
  | last {scope : Nat} {frame : Frame} (found : frames[scope]? = some frame)
      (root : frame.parent = none) : Climb frames scope [frame]
  | next {scope parent : Nat} {frame : Frame} {above : List Frame}
      (found : frames[scope]? = some frame) (child : frame.parent = some parent)
      (climb : Climb frames parent above) : Climb frames scope (frame :: above)

section

variable {frames : Array Frame} {scope : Nat}

/-- From a frame that exists the way up ends, after no more frames than lie before it. -/
theorem exists_climb (ordered : Ordered frames) (lt : scope < frames.size) :
    ∃ path, Climb frames scope path ∧ path.length ≤ scope + 1 := by
  induction scope using Nat.strongRecOn with
  | ind scope ih =>
      have found : frames[scope]? = some frames[scope] := Array.getElem?_eq_getElem lt
      cases above : frames[scope].parent with
      | none => exact ⟨_, .last found above, Nat.le_add_left 1 scope⟩
      | some parent =>
          have before := ordered scope _ parent found above
          rcases ih parent before (Nat.lt_trans before lt) with ⟨path, climb, short⟩
          refine ⟨_, .next found above climb, ?_⟩
          simp only [List.length_cons]
          omega

/-- A look-up with enough steps gives the first value on the way up. -/
theorem Climb.find?_eq {path : List Frame} (climb : Climb frames scope path) (name : String)
    {steps : Nat} (enough : path.length ≤ steps) :
    Machine.find? frames name steps scope = path.findSome? (·.bindings.lookup name) := by
  induction climb generalizing steps with
  | @last scope frame found root =>
      cases steps with
      | zero => simp at enough
      | succ steps =>
          simp only [Machine.find?, found, Option.bind_eq_bind, Option.bind_some, root,
            Option.bind_none, List.findSome?_cons, List.findSome?_nil]
          cases frame.bindings.lookup name <;> rfl
  | @next scope parent frame above found child climb ih =>
      cases steps with
      | zero => simp at enough
      | succ steps =>
          have inside := ih (Nat.le_of_succ_le_succ enough)
          simp only [Machine.find?, found, Option.bind_eq_bind, Option.bind_some, child, inside,
            List.findSome?_cons]
          cases frame.bindings.lookup name <;> rfl

end

theorem Machine.Valid.exists_climb_lookup? {machine : Machine} (valid : machine.Valid) :
    ∃ path, Climb machine.frames machine.scope path ∧ path.length ≤ machine.frames.size ∧
      ∀ name, machine.lookup? name = path.findSome? (·.bindings.lookup name) := by
  rcases exists_climb valid.ordered valid.scope_lt with ⟨path, climb, short⟩
  have enough : path.length ≤ machine.frames.size := Nat.le_trans short valid.scope_lt
  exact ⟨path, climb, enough, fun name => climb.find?_eq name enough⟩

/-! ### Tasks that were put aside -/

/-- A task that leaves the frames and the calls alone, or puts tasks for going back behind its
own. -/
def Task.IsPlain : Task → Prop
  | .visit _ | .write _ => True
  | .leave .. | .resume .. => False

/-- The tasks can be taken up with a number of frames and with the calls under way: those for going
back find the frames to which they go. -/
def Fits (limit : Nat) : (size : Nat) → (calls : List Call) → List Task → Prop
  | _, _, [] => True
  | size, calls, .visit _ :: rest => Fits limit size calls rest
  | size, calls, .write _ :: rest => Fits limit size calls rest
  | size, calls, .leave frames scope :: rest =>
      frames ≤ size ∧ scope < frames ∧ (∀ call ∈ calls.tail, call.caller < frames) ∧
        Fits limit frames calls.tail rest
  | size, calls, .resume call _ scope :: rest =>
      calls.length < limit ∧ call.caller < size ∧ scope < size ∧
        Fits limit size (call :: calls) rest

theorem fits_cons_iff {limit size : Nat} {calls : List Call} {task : Task} {rest : List Task}
    (plain : task.IsPlain) : Fits limit size calls (task :: rest) ↔ Fits limit size calls rest := by
  cases task with
  | visit | write => exact Iff.rfl
  | leave | resume => exact plain.elim

theorem fits_append_iff {limit size : Nat} {calls : List Call} {here rest : List Task}
    (plain : ∀ task ∈ here, task.IsPlain) :
    Fits limit size calls (here ++ rest) ↔ Fits limit size calls rest := by
  induction here with
  | nil => exact Iff.rfl
  | cons task here ih =>
      rw [List.cons_append, fits_cons_iff (plain task List.mem_cons_self)]
      exact ih fun other inside => plain other (List.mem_cons_of_mem task inside)

theorem isPlain_visit (node : Node) : (Task.visit node).IsPlain := trivial

theorem isPlain_of_mem_visits {nodes : List Node} :
    ∀ task ∈ nodes.map Task.visit, task.IsPlain := by
  intro task inside
  rcases List.mem_map.mp inside with ⟨node, -, rfl⟩
  trivial

namespace LoopState

/-- How a step changes the frames, the calls and the tasks. -/
inductive Moves (limit : Nat) : LoopState → LoopState → Prop where
  | stay {before after : Machine} {blocks : List (List Node)} {task : Task}
      {here rest : List Task} (plain : task.IsPlain) (same : before.SameContext after)
      (following : ∀ task ∈ here, task.IsPlain) :
      Moves limit ⟨before, blocks, task :: rest⟩ ⟨after, blocks, here ++ rest⟩
  | call {machine : Machine} {blocks : List (List Node)} {task : Task} {rest : List Task}
      (plain : task.IsPlain) (below : machine.calls.length < limit) (name : String)
      (bindings : List (String × String)) (block body : List Node) :
      Moves limit ⟨machine, blocks, task :: rest⟩
        ⟨machine.entered name bindings, block :: blocks,
          body.map .visit ++ .leave machine.frames.size machine.scope :: rest⟩
  | block {machine : Machine} {call : Call} {others : List Call} {block : List Node}
      {blocks : List (List Node)} {task : Task} {rest : List Task} (plain : task.IsPlain)
      (calls : machine.calls = call :: others) :
      Moves limit ⟨machine, block :: blocks, task :: rest⟩
        ⟨machine.suspend call, blocks,
          block.map .visit ++ .resume call block machine.scope :: rest⟩
  | leave {machine : Machine} {blocks : List (List Node)} {frames scope : Nat}
      {rest : List Task} :
      Moves limit ⟨machine, blocks, .leave frames scope :: rest⟩
        ⟨machine.leave frames scope, blocks.tail, rest⟩
  | resume {machine : Machine} {blocks : List (List Node)} {call : Call} {block : List Node}
      {scope : Nat} {rest : List Task} :
      Moves limit ⟨machine, blocks, .resume call block scope :: rest⟩
        ⟨machine.resume call scope, block :: blocks, rest⟩

section

variable {limit : Nat} {machine : Machine} {blocks : List (List Node)} {task : Task}
  {rest : List Task} {next : LoopState}

/-- A task that puts no other ones in front. -/
theorem Moves.still {after : Machine} (plain : task.IsPlain) (same : machine.SameContext after) :
    Moves limit ⟨machine, blocks, task :: rest⟩ ⟨after, blocks, rest⟩ := by
  have moves : Moves limit ⟨machine, blocks, task :: rest⟩ ⟨after, blocks, [] ++ rest⟩ :=
    .stay plain same fun other inside => absurd inside List.not_mem_nil
  exact moves

theorem moves_of_write (plain : task.IsPlain) (text : String) :
    Moves limit ⟨machine, blocks, task :: rest⟩ (write ⟨machine, blocks, rest⟩ text) :=
  .still plain ⟨rfl, rfl, rfl⟩

theorem moves_of_withValue {name : String} {span : Span}
    {following : String → Progress}
    (stepped : withValue ⟨machine, blocks, rest⟩ name span following = .running next)
    (each : ∀ value, following value = .running next →
      Moves limit ⟨machine, blocks, task :: rest⟩ next) :
    Moves limit ⟨machine, blocks, task :: rest⟩ next := by
  unfold withValue at stepped
  split at stepped
  · exact each _ stepped
  · cases stepped

theorem moves_of_element (plain : task.IsPlain) {name : String} {span : Span}
    {selfClosing : Bool} {attributes : List Attribute} {children : List Node}
    (stepped : element ⟨machine, blocks, rest⟩ name span selfClosing attributes children =
      .running next) : Moves limit ⟨machine, blocks, task :: rest⟩ next := by
  unfold element at stepped
  dsimp only at stepped
  split at stepped
  · split at stepped
    · cases stepped
    · cases stepped
      exact moves_of_write plain _
  · cases stepped
    refine .stay plain ⟨rfl, rfl, rfl⟩ fun other inside => ?_
    rcases List.mem_append.mp inside with inside | inside
    · exact isPlain_of_mem_visits other inside
    · obtain rfl := List.mem_singleton.mp inside
      trivial

theorem moves_of_declare (plain : task.IsPlain) {head : MixinHead} {span : Span}
    {body : List Node}
    (stepped : declare ⟨machine, blocks, rest⟩ head span body = .running next) :
    Moves limit ⟨machine, blocks, task :: rest⟩ next := by
  unfold declare at stepped
  split at stepped
  · cases stepped
  · cases stepped
    exact .still plain ⟨rfl, rfl, rfl⟩

theorem moves_of_call (plain : task.IsPlain) {head : MixinHead} {span : Span}
    {block : List Node}
    (stepped : call limit ⟨machine, blocks, rest⟩ head span block = .running next) :
    Moves limit ⟨machine, blocks, task :: rest⟩ next := by
  unfold call at stepped
  dsimp only at stepped
  split at stepped
  · cases stepped
  · split at stepped
    · cases stepped
    case isFalse below =>
      cases stepped
      exact .call plain (Nat.not_le.mp below) ..

theorem moves_of_block (plain : task.IsPlain) {span : Span}
    (stepped : LoopState.block ⟨machine, blocks, rest⟩ span = .running next) :
    Moves limit ⟨machine, blocks, task :: rest⟩ next := by
  unfold LoopState.block at stepped
  dsimp only at stepped
  split at stepped
  case h_1 calls =>
    cases stepped
    exact .block plain calls
  · cases stepped

theorem moves_of_visitLeaf {span : Span} {content : Leaf}
    (stepped : visitLeaf limit ⟨machine, blocks, rest⟩ span content = .running next) :
    Moves limit ⟨machine, blocks, .visit (.leaf span content) :: rest⟩ next := by
  have still : Moves limit ⟨machine, blocks, .visit (.leaf span content) :: rest⟩
      ⟨machine, blocks, rest⟩ := .still (isPlain_visit _) (.refl machine)
  cases content with
  | mixinBlock => exact moves_of_block trivial stepped
  | yieldSlot | doctype =>
      cases stepped
      exact still
  | text value html =>
      cases stepped
      exact moves_of_write (isPlain_visit _) _
  | code expression buffered escaped inLine =>
      simp only [visitLeaf] at stepped
      split at stepped
      · refine moves_of_withValue stepped fun value following => ?_
        cases following
        exact moves_of_write (isPlain_visit _) _
      · cases stepped
        exact still
  | comment value buffered =>
      simp only [visitLeaf] at stepped
      split at stepped
      · cases stepped
        exact moves_of_write (isPlain_visit _) _
      · cases stepped
        exact still
  | mixin head =>
      simp only [visitLeaf] at stepped
      split at stepped
      · exact moves_of_call trivial stepped
      · exact moves_of_declare trivial stepped

theorem moves_of_visit {node : Node}
    (stepped : visit limit ⟨machine, blocks, rest⟩ node = .running next) :
    Moves limit ⟨machine, blocks, .visit node :: rest⟩ next := by
  cases node with
  | leaf span content => exact moves_of_visitLeaf stepped
  | file span use reference loaded children => cases stepped
  | branch span label children =>
      cases label with
      | block =>
          cases stepped
          exact .stay trivial (.refl machine) isPlain_of_mem_visits
      | tag head body => exact moves_of_element trivial stepped
      | variableTag head body =>
          exact moves_of_withValue stepped fun name following =>
            moves_of_element trivial following
      | mixin head body =>
          simp only [visit] at stepped
          split at stepped
          · exact moves_of_call trivial stepped
          · exact moves_of_declare trivial stepped
      | blockComment value buffered body =>
          simp only [visit] at stepped
          split at stepped
          · cases stepped
            refine .stay trivial ⟨rfl, rfl, rfl⟩ fun other inside => ?_
            rcases List.mem_append.mp inside with inside | inside
            · exact isPlain_of_mem_visits other inside
            · obtain rfl := List.mem_singleton.mp inside
              trivial
          · cases stepped
            exact .still (isPlain_visit _) (.refl machine)
      | namedBlock name mode => cases stepped
      | filter name attributes body => cases stepped

end

theorem moves_of_step {limit : Nat} {state next : LoopState}
    (stepped : state.step limit = .running next) : Moves limit state next := by
  rcases state with ⟨machine, blocks, _ | ⟨task, rest⟩⟩
  · cases stepped
  · cases task with
    | visit node => exact moves_of_visit stepped
    | write text =>
        cases stepped
        exact .still trivial ⟨rfl, rfl, rfl⟩
    | leave frames scope =>
        cases stepped
        exact .leave
    | resume call block scope =>
        cases stepped
        exact .resume

/-- The frames of the state are valid and stay so when tasks that were put aside are taken up. Each
call under way has its block, and there are no more calls than allowed. -/
structure Sound (limit : Nat) (state : LoopState) : Prop where
  valid : state.machine.Valid
  blocks : state.machine.calls.length = state.blocks.length
  depth : state.machine.calls.length ≤ limit
  fits : Fits limit state.machine.frames.size state.machine.calls state.tasks

theorem Moves.sound {limit : Nat} {state next : LoopState} (moves : Moves limit state next)
    (sound : Sound limit state) : Sound limit next := by
  rcases sound with ⟨valid, lengths, depth, fits⟩
  cases moves with
  | stay plain same following =>
      refine ⟨valid.of_sameContext same, ?_, ?_, ?_⟩
      · exact same.calls ▸ lengths
      · exact same.calls ▸ depth
      · rw [same.frames, same.calls, fits_append_iff following]
        exact (fits_cons_iff plain).mp fits
  | call plain below name bindings block body =>
      refine ⟨valid.entered name bindings, congrArg (· + 1) lengths, below, ?_⟩
      rw [fits_append_iff isPlain_of_mem_visits]
      refine ⟨?_, valid.scope_lt, valid.caller_lt, (fits_cons_iff plain).mp fits⟩
      simp [Machine.entered, Machine.enter, Machine.note]
  | @block machine call others block blocks task rest plain calls =>
      have fewer : (machine.suspend call).calls = others := by simp [Machine.suspend, calls]
      simp only [calls, List.length_cons] at lengths depth
      refine ⟨valid.suspend calls, ?_, ?_, ?_⟩
      · simp only [fewer]
        omega
      · simp only [fewer]
        omega
      · rw [fits_append_iff isPlain_of_mem_visits, fewer]
        refine ⟨depth, valid.caller_lt call (calls ▸ List.mem_cons_self), valid.scope_lt, ?_⟩
        exact calls ▸ (fits_cons_iff plain).mp fits
  | @leave machine blocks frames scope rest =>
      rcases fits with ⟨le, scope_lt, caller_lt, fits⟩
      have size : (machine.leave frames scope).frames.size = frames := by
        simp only [Machine.leave, Array.size_shrink]
        exact Nat.min_eq_left le
      dsimp only at lengths depth
      refine ⟨valid.leave le scope_lt caller_lt, ?_, ?_, ?_⟩
      · simp only [Machine.leave, List.length_tail]
        omega
      · simp only [Machine.leave, List.length_tail]
        omega
      · rw [size]
        exact fits
  | resume =>
      rcases fits with ⟨below, caller_lt, scope_lt, fits⟩
      exact ⟨valid.resume caller_lt scope_lt, congrArg (· + 1) lengths, below, fits⟩

theorem Sound.start (limit : Nat) (document : Document) (options : RenderOptions)
    (events : Array Event) : Sound limit (.start document options events) := by
  refine ⟨.start options.globals doctype events, rfl, Nat.zero_le limit, ?_⟩
  have fits : Fits limit 1 [] (document.nodes.map .visit ++ []) :=
    (fits_append_iff isPlain_of_mem_visits).mpr trivial
  rwa [List.append_nil] at fits

/-- From one state the loop comes to another. -/
def Reaches (limit : Nat) (state later : LoopState) : Prop :=
  ∃ steps, loop limit steps state = .running later

/-- What is sound stays sound, over every run. -/
theorem Sound.of_reaches {limit : Nat} {state later : LoopState} (sound : Sound limit state)
    (reaches : Reaches limit state later) : Sound limit later := by
  rcases reaches with ⟨steps, runs⟩
  induction steps generalizing state with
  | zero =>
      cases runs
      exact sound
  | succ steps ih =>
      simp only [loop] at runs
      split at runs
      case h_1 next stepped => exact ih ((moves_of_step stepped).sound sound) runs
      · cases runs

end LoopState

/-! ### Visits in the states of the loop -/

/-- How the block of the innermost call is rendered, when the blocks of all calls under way are
known: where that call stands, among the calls further out. -/
def renderBlock (limit : Nat) : (blocks : List (List Node)) → Rendering Unit
  | [] => pure ()
  | block :: blocks =>
      visitAll limit (levels limit (limit - blocks.length)) (renderBlock limit blocks) block

/-- How a node is rendered inside of calls with some blocks. -/
def renderNode (limit : Nat) (blocks : List (List Node)) (node : Node) : Rendering Unit :=
  visit limit (levels limit (limit - blocks.length)) (renderBlock limit blocks) node

theorem restores_renderBlock (limit : Nat) (blocks : List (List Node)) :
    (renderBlock limit blocks).Restores := by
  induction blocks with
  | nil => exact restores_pure
  | cons block blocks ih => exact restores_visitAll (restores_levels limit _) ih block

theorem restores_renderNode (limit : Nat) (blocks : List (List Node)) (node : Node) :
    (renderNode limit blocks node).Restores :=
  restores_visit (restores_levels limit _) (restores_renderBlock limit blocks) node

/-- Inside of calls that are under way, nodes are visited as the loop does it. -/
theorem exists_performing {limit size : Nat} {calls : List Call} {blocks : List (List Node)}
    (lengths : calls.length = blocks.length) (depth : calls.length ≤ limit)
    (fits : ∀ block ∈ blocks, Node.sizeAll block ≤ size) :
    ∃ bound, Performing limit size (bodyBound size (limit - blocks.length))
      (levels limit (limit - blocks.length)) bound (renderBlock limit blocks) calls blocks := by
  have levelled : Deeper.Performs limit size (bodyBound size (limit - blocks.length))
      (levels limit (limit - blocks.length)) calls := performs_levels (by omega)
  induction blocks generalizing calls with
  | nil =>
      obtain rfl := List.length_eq_zero_iff.mp lengths
      exact ⟨0, bodyBound_mono _ _, levelled, restores_levels _ _, trivial, restores_pure⟩
  | cons block blocks ih =>
      cases calls with
      | nil => cases lengths
      | cons call calls =>
          simp only [List.length_cons] at lengths depth
          rcases @ih calls (by omega) (by omega)
            (fun other inside => fits other (List.mem_cons_of_mem block inside))
            (performs_levels (by omega)) with ⟨bound, performing⟩
          refine ⟨nodesBound (bodyBound size (limit - blocks.length)) bound (Node.sizeAll block),
            bodyBound_mono _ _, levelled, restores_levels _ _, fun machine same small => ?_,
            restores_renderBlock limit (block :: blocks)⟩
          exact performs_visitAll performing block machine same small
            (fits block List.mem_cons_self)

/-- Some size bounds all the bodies that are declared. -/
theorem exists_small (machine : Machine) : ∃ size, Small size machine := by
  refine ⟨(machine.mixins.map fun entry => Node.sizeAll entry.2.body).sum, fun entry inside => ?_⟩
  exact List.le_sum_of_mem (List.mem_map_of_mem inside)

/-- In front of a node, the loop does what rendering the node does: it comes to the state behind the
node, or stops with the fault. -/
theorem LoopState.Sound.reaches_renderNode {limit : Nat} {machine : Machine}
    {blocks : List (List Node)} {node : Node} {rest : List Task}
    (sound : Sound limit ⟨machine, blocks, .visit node :: rest⟩) :
    match renderNode limit blocks node machine with
    | .ok _ after => Reaches limit ⟨machine, blocks, .visit node :: rest⟩ ⟨after, blocks, rest⟩
    | .error fault _ => ∃ steps stopped,
        loop limit steps ⟨machine, blocks, .visit node :: rest⟩ =
          .stopped (.error fault stopped) := by
  rcases exists_small machine with ⟨bodies, small⟩
  let size := bodies + (blocks.map Node.sizeAll).sum + node.size
  have smallSize : Small size machine := fun entry inside =>
    Nat.le_trans (small entry inside) (by omega)
  have fits : ∀ block ∈ blocks, Node.sizeAll block ≤ size := fun block inside => by
    have : Node.sizeAll block ≤ (blocks.map Node.sizeAll).sum :=
      List.le_sum_of_mem (List.mem_map_of_mem inside)
    omega
  rcases @exists_performing limit size machine.calls blocks sound.blocks sound.depth fits with
    ⟨bound, performing⟩
  have performed := performs_visit performing node machine rfl smallSize (by omega) rest
  simp only [renderNode]
  cases rendered : Html.visit limit (levels limit (limit - blocks.length))
      (renderBlock limit blocks) node machine with
  | ok value after =>
      simp only [rendered] at performed
      rcases performed with ⟨-, count, -, runs⟩
      exact ⟨count, runs 0⟩
  | error fault after =>
      simp only [rendered] at performed
      rcases performed with ⟨count, -, stopped, stops, -⟩
      exact ⟨count, stopped, stops⟩

/-- In every state that rendering a document comes to, parents come before their children, the
current frame and the frames of the callers exist, and a look-up goes up a finite way of frames that
exist and takes the first value there. From a state in front of a node the loop does what rendering
the node does. And rendering a node, inside of any calls and from any state, leaves the frames, the
calls and the current frame as they were, whether it succeeds or fails. -/
theorem rendering_keeps_context (document : Document) (options : RenderOptions)
    (events : Array Event) :
    (∀ state, LoopState.Reaches options.maxMixinDepth (.start document options events) state →
      state.machine.Valid ∧
      (∃ path, Climb state.machine.frames state.machine.scope path ∧
        path.length ≤ state.machine.frames.size ∧
        ∀ name, state.machine.lookup? name = path.findSome? (·.bindings.lookup name)) ∧
      ∀ node rest, state.tasks = .visit node :: rest →
        match renderNode options.maxMixinDepth state.blocks node state.machine with
        | .ok _ after =>
            LoopState.Reaches options.maxMixinDepth state ⟨after, state.blocks, rest⟩
        | .error fault _ => ∃ steps stopped,
            loop options.maxMixinDepth steps state = .stopped (.error fault stopped)) ∧
    ∀ blocks node (machine : Machine),
      machine.SameContext (final (renderNode options.maxMixinDepth blocks node machine)) := by
  refine ⟨fun state reaches => ?_, fun blocks node machine =>
    restores_renderNode options.maxMixinDepth blocks node machine⟩
  have sound := (LoopState.Sound.start _ document options events).of_reaches reaches
  refine ⟨sound.valid, sound.valid.exists_climb_lookup?, fun node rest first => ?_⟩
  rcases state with ⟨machine, blocks, tasks⟩
  obtain rfl : tasks = .visit node :: rest := first
  exact sound.reaches_renderNode

/-- A page that calls a mixin with an argument: in front of the body, the call is under way. -/
theorem rendering_keeps_context_body :
    let body : List Node := [.leaf {} .mixinBlock]
    let document : Document :=
      { nodes := [.branch {} (.mixin ⟨"m", some "a", false, []⟩ {}) body,
          .leaf {} (.mixin ⟨"m", some "1", true, []⟩)] }
    ∃ state, LoopState.Reaches 256 (.start document {} #[]) state ∧
      state.tasks.length = 2 ∧ state.machine.scope = 1 ∧
      (∃ path, Climb state.machine.frames 1 path ∧ path.length ≤ 2) ∧
      state.machine.SameContext (final (renderNode 256 state.blocks (.leaf {} .mixinBlock)
        state.machine)) := by
  intro body document
  let machine := (((Machine.start [] doctype #[]).note (.mixinDeclared "m" 1)).declare "m"
    ⟨["a"], body⟩).entered "m" [("a", "1")]
  have reaches : LoopState.Reaches 256 (.start document {} #[])
      ⟨machine, [[]], [.visit (.leaf {} .mixinBlock), .leave 1 0]⟩ := ⟨2, by rfl⟩
  rcases rendering_keeps_context document {} #[] with ⟨states, visits⟩
  rcases states _ reaches with ⟨-, ⟨path, climb, short, -⟩, -⟩
  exact ⟨_, reaches, rfl, rfl, ⟨path, climb, short⟩, visits _ _ _⟩

end Offside.Html
