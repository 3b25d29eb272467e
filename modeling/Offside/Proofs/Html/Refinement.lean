import Offside.Proofs.Html.Context

/-!
# Frames and calls stand for environments and closures

Rendering keeps the variables in frames, and on a stack the frames in which the calls under way
stand. A frame stands for the environment in which names are looked up from there, and the stack
for the closure of the innermost call. New frames are put behind the old ones, so they leave the
environments of the old ones alone; and since each visit restores the context, it stands for the
same environment and closure from one sibling to the next.
-/

namespace Offside.Html

open Computing Rendering

/-! ### Environments of frames -/

/-- Each frame comes after its parent. -/
def Ordered (frames : Array Frame) : Prop :=
  ∀ (index : Nat) (frame : Frame) (parent : Nat),
    frames[index]? = some frame → frame.parent = some parent → parent < index

/-- The environment in which names are looked up from a frame. -/
def environmentAt (frames : Array Frame) (scope : Nat) : Environment :=
  fun name => Machine.find? frames name frames.size scope

section

variable {frames : Array Frame} {name : String} {scope steps : Nat}

/-- A look-up takes no more steps than there are frames up to where it starts. -/
theorem find?_eq_of_lt (ordered : Ordered frames) (lt : scope < steps) :
    Machine.find? frames name steps scope = Machine.find? frames name (scope + 1) scope := by
  induction scope using Nat.strongRecOn generalizing steps with
  | ind scope ih =>
    cases steps with
    | zero => omega
    | succ steps =>
        simp only [Machine.find?, Option.bind_eq_bind]
        cases found : frames[scope]? with
        | none => rfl
        | some frame =>
            simp only [Option.bind_some]
            cases frame.bindings.lookup name with
            | some value => rfl
            | none =>
                cases above : frame.parent with
                | none => rfl
                | some parent =>
                    have before := ordered scope frame parent found above
                    simp only [Option.bind_some]
                    rw [ih parent before (by omega), ih parent before before]

/-- A new frame is not seen from the old ones. -/
theorem find?_push (ordered : Ordered frames) (frame : Frame) (lt : scope < frames.size) :
    Machine.find? (frames.push frame) name steps scope =
      Machine.find? frames name steps scope := by
  induction steps generalizing scope with
  | zero => rfl
  | succ steps ih =>
      have same : (frames.push frame)[scope]? = frames[scope]? := by
        rw [Array.getElem?_push]
        simp [Nat.ne_of_lt lt]
      simp only [Machine.find?, same, Option.bind_eq_bind]
      cases found : frames[scope]? with
      | none => rfl
      | some old =>
          simp only [Option.bind_some]
          cases old.bindings.lookup name with
          | some value => rfl
          | none =>
              cases above : old.parent with
              | none => rfl
              | some parent =>
                  have before := ordered scope old parent found above
                  exact ih (Nat.lt_trans before lt)

theorem ordered_push (ordered : Ordered frames) (bindings : List (String × String))
    (lt : scope < frames.size) : Ordered (frames.push ⟨bindings, some scope⟩) := by
  intro index frame parent found above
  rw [Array.getElem?_push] at found
  split at found
  · rcases Option.some.inj found with rfl
    rcases Option.some.inj above with rfl
    omega
  · exact ordered index frame parent found above

theorem environmentAt_push (ordered : Ordered frames) (frame : Frame)
    (lt : scope < frames.size) :
    environmentAt (frames.push frame) scope = environmentAt frames scope := by
  funext name
  simp only [environmentAt, Array.size_push]
  rw [find?_push ordered frame lt, find?_eq_of_lt ordered (by omega),
    find?_eq_of_lt ordered lt]

/-- Seen from a new frame, its bindings are put over the environment of its parent. -/
theorem environmentAt_push_size (ordered : Ordered frames) (bindings : List (String × String))
    (lt : scope < frames.size) :
    environmentAt (frames.push ⟨bindings, some scope⟩) frames.size =
      (environmentAt frames scope).override bindings := by
  funext name
  have outer : Machine.find? (frames.push ⟨bindings, some scope⟩) name frames.size scope =
      Machine.find? frames name frames.size scope := find?_push ordered _ lt
  simp only [environmentAt, Environment.override, Array.size_push, Machine.find?,
    Array.getElem?_push_size, Option.bind_eq_bind, Option.bind_some, outer]
  cases bindings.lookup name <;> rfl

end

/-! ### Contexts -/

/-- The calls under way stand for a closure. -/
def CallsShow (frames : Array Frame) : List Call → Closure → Prop
  | [], .outermost => True
  | call :: calls, .call _ environment caller =>
      call.caller < frames.size ∧ environmentAt frames call.caller = environment ∧
        CallsShow frames calls caller
  | _, _ => False

theorem CallsShow.push {frames : Array Frame} (ordered : Ordered frames) (frame : Frame)
    {calls : List Call} {closure : Closure} (shown : CallsShow frames calls closure) :
    CallsShow (frames.push frame) calls closure := by
  induction calls generalizing closure with
  | nil =>
      cases closure with
      | outermost => trivial
      | call => exact shown.elim
  | cons call calls ih =>
      cases closure with
      | outermost => exact shown.elim
      | call block environment caller =>
          rcases shown with ⟨lt, same, others⟩
          refine ⟨?_, ?_, ih others⟩
          · rw [Array.size_push]
            omega
          · rw [environmentAt_push ordered frame lt, same]

/-- The state stands for an environment and a closure. -/
structure InContext (machine : Machine) (environment : Environment) (closure : Closure) :
    Prop where
  ordered : Ordered machine.frames
  scope_lt : machine.scope < machine.frames.size
  lookup : machine.lookup? = environment
  calls : CallsShow machine.frames machine.calls closure

namespace InContext

variable {machine : Machine} {environment : Environment} {closure : Closure}

theorem of_sameContext {after : Machine} (context : InContext machine environment closure)
    (same : machine.SameContext after) : InContext after environment closure := by
  rcases same with ⟨frames, calls, scope⟩
  refine ⟨?_, ?_, ?_, ?_⟩
  · rw [frames]
    exact context.ordered
  · rw [frames, scope]
    exact context.scope_lt
  · rw [← context.lookup]
    funext name
    simp only [Machine.lookup?, frames, scope]
  · rw [frames, calls]
    exact context.calls

/-- Inside of a call stand its parameters, over what can be seen from the call. -/
theorem entered (context : InContext machine environment closure) (name : String)
    (bindings : List (String × String)) (block : Option (List Node)) :
    InContext (machine.entered name bindings) (environment.override bindings)
      (.call block environment closure) := by
  rcases context with ⟨ordered, scope_lt, lookup, calls⟩
  have same : environmentAt machine.frames machine.scope = environment := lookup
  refine ⟨ordered_push ordered bindings scope_lt, ?_, ?_, ?_, ?_, calls.push ordered _⟩
  · simp [Machine.entered, Machine.enter, Machine.note]
  · rw [← same]
    exact environmentAt_push_size ordered bindings scope_lt
  · simp only [Machine.entered, Machine.enter, Machine.note, Array.size_push]
    omega
  · rw [← same]
    exact environmentAt_push ordered _ scope_lt

/-- The block of a call stands where the call does. -/
theorem suspend {block : Option (List Node)} {outside : Environment} {caller : Closure}
    {call : Call} {others : List Call} (calls : machine.calls = call :: others)
    (context : InContext machine environment (.call block outside caller)) :
    InContext (machine.suspend call) outside caller := by
  have shown := context.calls
  rw [calls] at shown
  rcases shown with ⟨lt, same, below⟩
  refine ⟨context.ordered, lt, same, ?_⟩
  simpa [Machine.suspend, calls] using below

end InContext

/-- The page and the table of mixins are those of the state. -/
structure Shows (page : Page) (machine : Machine) : Prop where
  output : page.output = machine.output
  mixins : ∀ name, page.mixins name = machine.mixins.lookup name

namespace Shows

variable {page : Page} {machine : Machine}

theorem write (shown : Shows page machine) (text : String) :
    Shows (page.write text) (machine.write text) := by
  refine ⟨?_, shown.mixins⟩
  simp only [Page.write, Machine.write, shown.output]

theorem declare (shown : Shows page machine) (name : String) (definition : MixinDefinition)
    (event : Event) :
    Shows (page.declare name definition) ((machine.note event).declare name definition) := by
  refine ⟨shown.output, fun other => ?_⟩
  simp only [Page.declare, Machine.declare, Machine.note, List.lookup_cons]
  by_cases same : other = name
  · simp [same]
  · have skipped : (other == name) = false := beq_eq_false_iff_ne.mpr same
    rw [if_neg same, skipped, lookup_filter_ne _ same]
    exact shown.mixins other

end Shows

/-! ### Rendering and evaluation side by side -/

/-- An evaluation ended as rendering did. -/
def Agrees : EStateM.Result EvaluationStop Page Unit →
    EStateM.Result (Diagnostic RenderFault) Machine Unit → Prop
  | .ok _ page, .ok _ machine => Shows page machine
  | .error (.fault found) _, .error fault _ => found = fault
  | _, _ => False

namespace Agrees

variable {result : EStateM.Result EvaluationStop Page Unit} {machine : Machine}

theorem ok_iff {value : Unit} :
    Agrees result (.ok value machine) ↔ ∃ page, result = .ok () page ∧ Shows page machine := by
  rcases result with ⟨value, page⟩ | ⟨fault | _, page⟩ <;> simp [Agrees]

theorem error_iff {fault : Diagnostic RenderFault} :
    Agrees result (.error fault machine) ↔ ∃ page, result = .error (.fault fault) page := by
  rcases result with ⟨value, page⟩ | ⟨found | _, page⟩ <;> simp [Agrees]

/-- The way back from a changed state does not touch the page, nor the table of mixins. -/
theorem bracket {α : Type} {keep : Machine → α} {into : Machine → Machine}
    {back : α → Machine → Machine} {action : Rendering Unit}
    (output : ∀ kept after, (back kept after).output = after.output)
    (mixins : ∀ kept after, (back kept after).mixins = after.mixins)
    (agrees : Agrees result (action (into machine))) :
    Agrees result (Rendering.bracket keep into back action machine) := by
  unfold Rendering.bracket
  cases acted : action (into machine) with
  | error fault after =>
      rw [acted, error_iff] at agrees
      exact error_iff.mpr agrees
  | ok value after =>
      rw [acted, ok_iff] at agrees
      rcases agrees with ⟨page, rfl, shown⟩
      refine ok_iff.mpr ⟨page, rfl, ?_, ?_⟩
      · rw [output, shown.output]
      · rw [mixins]
        exact shown.mixins

end Agrees

/-- In every state that stands for the environment and the closure, all evaluations with enough fuel
have one result, and rendering ends in the same way. -/
def Follows (action : Rendering Unit) (evaluation : (fuel : Nat) → Evaluation Unit)
    (environment : Environment) (closure : Closure) : Prop :=
  ∀ machine page, InContext machine environment closure → Shows page machine →
    ∃ enough result, (∀ fuel ≥ enough, evaluation fuel page = result) ∧
      Agrees result (action machine)

namespace Follows

variable {environment : Environment} {closure : Closure}

theorem pure : Follows (pure ()) (fun _ => pure ()) environment closure :=
  fun _ _ _ shown => ⟨0, _, fun _ _ => rfl, shown⟩

theorem fail (span : Span) (cause : RenderFault) :
    Follows (Rendering.fail span cause) (fun _ => Evaluation.fail span cause) environment
      closure :=
  fun _ _ _ _ => ⟨0, _, fun _ _ => rfl, rfl⟩

theorem write (text : String) :
    Follows (Rendering.write text) (fun _ => Evaluation.write text) environment closure :=
  fun _ _ _ shown => ⟨0, _, fun _ _ => rfl, shown.write text⟩

theorem seq {action next : Rendering Unit} {evaluation evaluationNext : Nat → Evaluation Unit}
    (restores : action.Restores) (first : Follows action evaluation environment closure)
    (second : Follows next evaluationNext environment closure) :
    Follows (action >>= fun _ => next)
      (fun fuel => evaluation fuel >>= fun _ => evaluationNext fuel) environment closure := by
  intro machine page context shown
  rcases first machine page context shown with ⟨enough, result, told, agrees⟩
  have kept := restores machine
  cases acted : action machine with
  | error fault after =>
      rw [acted, Agrees.error_iff] at agrees
      rcases agrees with ⟨middle, rfl⟩
      rw [bind_of_error acted]
      exact ⟨enough, _, fun fuel le => bind_of_error (told fuel le), rfl⟩
  | ok value after =>
      rw [acted] at agrees kept
      rcases Agrees.ok_iff.mp agrees with ⟨middle, rfl, shownAfter⟩
      rw [bind_of_ok acted]
      rcases second after middle (context.of_sameContext kept) shownAfter with
        ⟨more, last, toldNext, agreesNext⟩
      refine ⟨max enough more, last, fun fuel le => ?_, agreesNext⟩
      exact (bind_of_ok (told fuel (by omega))).trans (toldNext fuel (by omega))

/-- A variable has the same value in the frames and in the environment. -/
theorem lookup_bind {name : String} {span : Span} {next : String → Rendering Unit}
    {evaluationNext : String → Nat → Evaluation Unit}
    (second : ∀ value, Follows (next value) (evaluationNext value) environment closure) :
    Follows (lookup name span >>= next)
      (fun fuel => Evaluation.require (valueIn environment span name) >>=
        fun value => evaluationNext value fuel) environment closure := by
  intro machine page context shown
  have looked := lookup_eq name span machine
  rw [context.lookup] at looked
  cases found : valueIn environment span name with
  | error fault =>
      rw [found] at looked
      rw [bind_of_error looked]
      exact ⟨0, _, fun _ _ => rfl, rfl⟩
  | ok value =>
      rw [found] at looked
      rw [bind_of_ok looked]
      exact second value machine page context shown

theorem element {name : String} {span : Span} {selfClosing : Bool} {attributes : List Attribute}
    {children : List Node} {content : Rendering Unit} {evaluation : Nat → Evaluation Unit}
    (restores : content.Restores) (follows : Follows content evaluation environment closure) :
    Follows (Html.element name span selfClosing attributes children content)
      (fun fuel => evaluateElement name span selfClosing attributes children (evaluation fuel))
      environment closure := by
  refine (write _).seq (restores_write _) ?_
  by_cases void : (selfClosing || voidElements.contains name) = true
  · simp only [void, if_true]
    by_cases content : children.any (!·.isBlankText) = true
    · simp only [content, if_true]
      exact fail span _
    · simp only [content, Bool.false_eq_true, if_false]
      exact pure
  · simp only [void, Bool.false_eq_true, if_false]
    exact follows.seq restores (write _)

theorem declaration (head : MixinHead) (span : Span) (body : List Node) :
    Follows (declareMixin head span body) (fun _ => evaluateDeclaration head span body)
      environment closure := by
  intro machine page context shown
  rw [declareMixin_eq]
  simp only [evaluateDeclaration]
  cases declared head span body with
  | error fault => exact ⟨0, _, fun _ _ => rfl, rfl⟩
  | ok definition => exact ⟨0, _, fun _ _ => rfl, shown.declare head.name definition _⟩

end Follows

/-- Rendering the block of the innermost call follows its evaluation, where the call stands. -/
def BlockFollows (limit : Nat) (block : Rendering Unit) : Closure → Prop
  | .outermost => True
  | .call given outside caller =>
      Follows block
        (fun fuel =>
          match given with
          | none => pure ()
          | some nodes => evaluate limit fuel outside caller nodes)
        outside caller

/-- Rendering a body one level deeper follows its evaluation, if the block of the call does. -/
def Deeper.Follows (limit : Nat) (deeper : Deeper) (closure : Closure) : Prop :=
  match deeper with
  | none => limit ≤ closure.depth
  | some render =>
      closure.depth < limit ∧
        ∀ environment given outside block body, block.Restores →
          BlockFollows limit block (.call given outside closure) →
          Html.Follows (render block body)
            (fun fuel => evaluate limit fuel environment (.call given outside closure) body)
            environment (.call given outside closure)

section

variable {limit : Nat} {deeper : Deeper} {block : Rendering Unit} {environment : Environment}
  {closure : Closure}

/-- Entering a block takes one unit of fuel. -/
theorem Follows.enter {action : Rendering Unit} {nodes : List Node}
    (follows : Follows action
      (fun fuel => evaluateNodes limit (evaluate limit fuel) environment closure nodes)
      environment closure) :
    Follows action (fun fuel => evaluate limit fuel environment closure nodes) environment
      closure := by
  intro machine page context shown
  rcases follows machine page context shown with ⟨enough, result, told, agrees⟩
  refine ⟨enough + 1, result, fun fuel le => ?_, agrees⟩
  cases fuel with
  | zero => omega
  | succ fuel => exact told fuel (by omega)

theorem follows_enterMixin (head : MixinHead) (span : Span) {given : Option (List Node)}
    (body : List Node) (bindings : List (String × String)) (below : deeper.Follows limit closure)
    (restores : block.Restores)
    (follows : BlockFollows limit block (.call given environment closure)) :
    Follows (enterMixin limit deeper head span block body bindings)
      (fun fuel =>
        if limit ≤ closure.depth then Evaluation.fail span (.recursionLimit limit)
        else evaluate limit fuel (environment.override bindings)
          (.call given environment closure) body)
      environment closure := by
  cases deeper with
  | none =>
      simp only [show limit ≤ closure.depth from below, if_true]
      exact .fail span _
  | some render =>
      rcases below with ⟨lt, rendered⟩
      simp only [Nat.not_le.mpr lt, if_false]
      intro machine page context shown
      rcases rendered (environment.override bindings) given environment block body restores follows
        (machine.entered head.name bindings) page (context.entered head.name bindings given)
        ⟨shown.output, shown.mixins⟩ with ⟨enough, result, told, agrees⟩
      refine ⟨enough, result, told, ?_⟩
      simp only [enterMixin]
      refine Agrees.bracket ?_ ?_ agrees <;> exact fun _ _ => rfl

theorem follows_callMixin {head : MixinHead} {span : Span} {given : Option (List Node)}
    (below : deeper.Follows limit closure) (restores : block.Restores)
    (follows : BlockFollows limit block (.call given environment closure)) :
    Follows (callMixin limit deeper head span block)
      (fun fuel => evaluateCall limit (evaluate limit fuel) environment closure head span given)
      environment closure := by
  intro machine page context shown
  rw [callMixin_eq, context.lookup]
  change ∃ enough result, (∀ fuel ≥ enough,
    (Evaluation.require (calleeIn environment span (page.mixins head.name) head) >>= _) page =
      result) ∧ _
  rw [shown.mixins head.name]
  cases calleeIn environment span (machine.mixins.lookup head.name) head with
  | error fault => exact ⟨0, _, fun _ _ => rfl, rfl⟩
  | ok callee =>
      exact follows_enterMixin head span callee.1 callee.2 below restores follows machine page
        context shown

theorem follows_mixinBlock {span : Span} (follows : BlockFollows limit block closure) :
    Follows (mixinBlock span block)
      (fun fuel => evaluateBlock (evaluate limit fuel) closure span) environment closure := by
  intro machine page context shown
  rw [mixinBlock_eq]
  have calls := context.calls
  cases closure with
  | outermost =>
      cases stack : machine.calls with
      | cons call others =>
          rw [stack] at calls
          exact calls.elim
      | nil => exact ⟨0, _, fun _ _ => rfl, rfl⟩
  | call given outside caller =>
      cases stack : machine.calls with
      | nil =>
          rw [stack] at calls
          exact calls.elim
      | cons call others =>
          rcases follows (machine.suspend call) page (context.suspend stack)
            ⟨shown.output, shown.mixins⟩ with ⟨enough, result, told, agrees⟩
          refine ⟨enough, result, fun fuel le => ?_,
            agrees.bracket (fun _ _ => rfl) (fun _ _ => rfl)⟩
          rw [← told fuel le]
          cases given <;> rfl

theorem follows_leafText (below : deeper.Follows limit closure)
    (follows : BlockFollows limit block closure) (span : Span) (content : Leaf) :
    Follows (leafText limit deeper block span content)
      (fun fuel => evaluateLeaf limit (evaluate limit fuel) environment closure span content)
      environment closure := by
  cases content with
  | mixinBlock => exact follows_mixinBlock follows
  | yieldSlot => exact .pure
  | doctype value => exact .pure
  | text value html => exact .write value
  | code expression buffered escaped inLine =>
      cases buffered with
      | false => exact .pure
      | true => exact .lookup_bind fun value => .write _
  | comment value buffered =>
      cases buffered with
      | false => exact .pure
      | true => exact .write _
  | mixin head =>
      simp only [leafText, evaluateLeaf]
      split
      · exact follows_callMixin below restores_pure .pure
      · exact .declaration head span []

/-- What the visits in a call need: deeper levels and the block of the call follow their
evaluations, and restore the context. -/
structure Corresponds (limit : Nat) (deeper : Deeper) (block : Rendering Unit)
    (closure : Closure) : Prop where
  below : deeper.Follows limit closure
  restoresBelow : deeper.Restores
  follows : BlockFollows limit block closure
  restores : block.Restores

mutual

theorem follows_visit (corresponds : Corresponds limit deeper block closure) (node : Node) :
    Follows (visit limit deeper block node)
      (fun fuel => evaluateNode limit (evaluate limit fuel) environment closure node)
      environment closure := by
  rcases id corresponds with ⟨below, restoresBelow, follows, restores⟩
  match node with
  | .leaf span content => exact follows_leafText below follows span content
  | .file span use reference loaded children => exact .fail span _
  | .branch span label children =>
      have content : Follows _ _ environment closure := follows_visitAll corresponds children
      have restoresContent : (visitAll limit deeper block children).Restores :=
        restores_visitAll restoresBelow restores children
      cases label with
      | block => simpa only [visit, evaluateNode] using content
      | tag head body =>
          simp only [visit, evaluateNode]
          exact .element restoresContent content
      | variableTag head body =>
          simp only [visit, evaluateNode]
          exact .lookup_bind fun name => .element restoresContent content
      | mixin head body =>
          simp only [visit, evaluateNode]
          split
          · exact follows_callMixin below restoresContent content.enter
          · exact .declaration head span children
      | blockComment value buffered body =>
          simp only [visit, evaluateNode]
          split
          · exact (Follows.write _).seq (restores_write _)
              (content.seq restoresContent (.write _))
          · exact .pure
      | namedBlock name mode => exact .fail span _
      | filter name attributes body => exact .fail span _

theorem follows_visitAll (corresponds : Corresponds limit deeper block closure)
    (nodes : List Node) :
    Follows (visitAll limit deeper block nodes)
      (fun fuel => evaluateNodes limit (evaluate limit fuel) environment closure nodes)
      environment closure := by
  match nodes with
  | [] => exact .pure
  | node :: rest =>
      simp only [visitAll, evaluateNodes]
      exact (follows_visit corresponds node).seq
        (restores_visit corresponds.restoresBelow corresponds.restores node)
        (follows_visitAll corresponds rest)

end

end

/-- With as many levels left as calls are still allowed, each level follows its evaluation. -/
theorem follows_levels {limit remaining : Nat} {closure : Closure}
    (depth : remaining + closure.depth = limit) :
    Deeper.Follows limit (levels limit remaining) closure := by
  induction remaining generalizing closure with
  | zero =>
      change limit ≤ closure.depth
      omega
  | succ remaining ih =>
      refine ⟨by omega, fun environment given outside block body restores follows => ?_⟩
      have inside : remaining + (Closure.call given outside closure).depth = limit := by
        simp only [Closure.depth]
        omega
      exact (follows_visitAll ⟨ih inside, restores_levels limit remaining, follows, restores⟩
        body).enter

theorem inContext_start (globals : List (String × String)) (output : String)
    (events : Array Event) :
    InContext (Machine.start globals output events) (.ofBindings globals) .outermost := by
  refine ⟨?_, Nat.zero_lt_one, ?_, trivial⟩
  · intro index frame parent found above
    cases index with
    | zero =>
        rcases Option.some.inj found with rfl
        cases above
    | succ index => simp [Machine.start] at found
  · funext name
    change Machine.find? #[⟨globals, none⟩] name 1 0 = globals.lookup name
    simp only [Machine.find?, List.getElem?_toArray, List.getElem?_cons_zero, Option.bind_eq_bind,
      Option.bind_some]
    cases globals.lookup name <;> rfl

/-- Rendering a document has one result: the one that evaluation by closures has with any amount
of fuel that is enough to tell, and there is such an amount. -/
theorem outcome_render_eq_iff (document : Document) (options : RenderOptions)
    (events : Array Event) (result : Except (Diagnostic RenderFault) String) :
    outcome (render document options events) = result ↔
      ∃ fuel, evaluatePage? fuel document options = some result := by
  have below : Deeper.Follows options.maxMixinDepth
      (levels options.maxMixinDepth options.maxMixinDepth) .outermost := follows_levels rfl
  have start := inContext_start options.globals doctype events
  rcases (follows_visitAll ⟨below, restores_levels _ _, trivial, restores_pure⟩
    document.nodes).enter _ ⟨doctype, fun _ => none⟩ start ⟨rfl, fun _ => rfl⟩ with
    ⟨enough, ended, told, agrees⟩
  have evaluated : evaluatePage? enough document options =
      some (outcome (render document options events)) := by
    have ended := told enough (Nat.le_refl enough)
    dsimp only at ended
    unfold evaluatePage? render
    rw [ended]
    dsimp only
    cases rendered : visitAll options.maxMixinDepth
      (levels options.maxMixinDepth options.maxMixinDepth) (Pure.pure ()) document.nodes
      (Machine.start options.globals doctype events) with
    | ok value machine =>
        rw [rendered, Agrees.ok_iff] at agrees
        rcases agrees with ⟨page, rfl, shown⟩
        exact congrArg (some ∘ Except.ok) shown.output
    | error fault machine =>
        rw [rendered, Agrees.error_iff] at agrees
        rcases agrees with ⟨page, rfl⟩
        rfl
  constructor
  · rintro rfl
    exact ⟨enough, evaluated⟩
  · rintro ⟨fuel, told⟩
    -- More fuel changes nothing, so both amounts give what the larger one gives.
    have first := evaluatePage?_of_le evaluated (Nat.le_max_left enough fuel)
    have second := evaluatePage?_of_le told (Nat.le_max_right enough fuel)
    exact Option.some.inj (first.symm.trans second)

end Offside.Html
