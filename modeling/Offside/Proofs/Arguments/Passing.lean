import Offside.Proofs.Arguments.Reading
import Offside.Proofs.Contract.Rendering
import Offside.Proofs.Html.Context

/-!
# Passing arguments

A call binds the parameters of the mixin to the values of the arguments. Where these are literals,
their values are the texts that were quoted. The mixin is the one that was declared last under its
name, so from its declaration on it stays the same until there is another one.

The bindings are in force all through the body, and also in the blocks of the calls in it. Such a
block is rendered when another body asks for it, but in the frame in which its call stands, and all
frames that were there when the call was entered are still there.
-/

namespace Offside.Node

/-! ### Where a mixin is declared -/

variable {holds : Node → Prop} {name : String} {node : Node}

instance : Hereditary fun node => Every holds node.walk where
  children {node} found := by
    cases node with
    | leaf => exact every_nil
    | branch => exact every_walkAll_iff.mp (every_cons.mp found).2
    | file _ use =>
        cases use with
        | inclusion => exact every_walkAll_iff.mp (every_cons.mp found).2
        | raw | inheritance => exact every_nil

theorem self_mem_walk (node : Node) : node ∈ node.walk := by
  cases node with
  | leaf | branch => simp [walk]
  | file _ use => cases use <;> simp [walk]

/-- The mixin is declared nowhere in the node. -/
def Undeclared (name : String) (node : Node) : Prop :=
  Every (fun inner => ∀ found ∈ inner.declaration?, found.1.name ≠ name) node.walk

/-- The mixin is not declared in the body of any declaration in the node. -/
def UndeclaredInside (name : String) (node : Node) : Prop :=
  Every (fun inner => ∀ found ∈ inner.declaration?, Every (Undeclared name) found.2) node.walk

instance : Hereditary (Undeclared name) :=
  inferInstanceAs (Hereditary fun node => Every _ node.walk)

instance : Hereditary (UndeclaredInside name) :=
  inferInstanceAs (Hereditary fun node => Every _ node.walk)

theorem every_of_declaration? [Hereditary holds] (found : holds node)
    {declared : MixinHead × List Node} (declares : node.declaration? = some declared) :
    Every holds declared.2 := by
  have children := Hereditary.children found
  rwa [children?_of_mixin? (mixin?_of_declaration? declares).1] at children

theorem Undeclared.inside (undeclared : node.Undeclared name) : node.UndeclaredInside name :=
  fun inner member _ declares => every_of_declaration? (every_walk undeclared inner member) declares

theorem renders_of_hereditary [Hereditary holds] : Renders holds fun _ => True where
  children found := Hereditary.children found
  blames _ _ := trivial
  namedBlock _ := trivial
  filter _ := trivial
  file _ := trivial

end Offside.Node

namespace Offside.Html

open Computing Rendering

/-! ### Bindings -/

theorem lookup_eq_some_of_mem {entries : List (String × String)} {name value : String}
    (distinct : (entries.map Prod.fst).Nodup) (mem : (name, value) ∈ entries) :
    entries.lookup name = some value := by
  induction entries with
  | nil => simp at mem
  | cons entry rest ih =>
      rw [List.map_cons, List.nodup_cons] at distinct
      rcases List.mem_cons.mp mem with rfl | mem
      · simp
      · have other : name ≠ entry.1 := by
          rintro rfl
          exact distinct.1 (List.mem_map.mpr ⟨_, mem, rfl⟩)
        rw [List.lookup_cons, beq_false_of_ne other]
        exact ih distinct.2 mem

theorem bindingsIn_literals (environment : Environment) (span : Span) (names : List String)
    (arguments : List LiteralArgument) (bindings : List (String × String)) :
    bindingsIn environment span (names.zip (arguments.map LiteralArgument.print)) bindings =
      .ok ((names.zip (arguments.map LiteralArgument.value)).reverse ++ bindings) := by
  induction arguments generalizing names bindings with
  | nil => simp [bindingsIn]
  | cons argument rest ih =>
      cases names with
      | nil => simp [bindingsIn]
      | cons name names =>
          have value : argumentIn environment span argument.print = .ok argument.value := by
            rw [argumentIn, LiteralArgument.print, Text.literal?_quoteText argument.isMark]
            simp
          simp [bindingsIn, value, ih]

/-! ### Declarations and calls -/

section

variable (name : MixinName) (parameters : List VariableName) (arguments : List LiteralArgument)

/-- A declaration as it stands in a document. -/
def declarationHead : MixinHead :=
  ⟨name.value, some (String.ofList (printParameters parameters)), false, []⟩

/-- A call as it stands in a document. -/
def callHead (attributes : List Attribute) : MixinHead :=
  ⟨name.value, some (String.ofList (LiteralArgument.printAll arguments)), true, attributes⟩

/-- The mixin that is declared. -/
def definitionOf (body : List Node) : MixinDefinition :=
  ⟨parameters.map VariableName.value, body⟩

/-- The bindings of the parameters in the body. -/
def bindingsOf : List (String × String) :=
  ((parameters.map VariableName.value).zip (arguments.map LiteralArgument.value)).reverse

theorem declared_declarationHead (span : Span) (body : List Node) :
    declared (declarationHead name parameters) span body = .ok (definitionOf parameters body) := by
  have items : listItems (((declarationHead name parameters).arguments.getD "").toList) =
      parameters.map (·.value.toList) := by
    simp [declarationHead, listItems_printParameters]
  have valid : (parameters.map (·.value.toList)).find? (!isName ·) = none := by
    simp [VariableName.valid]
  simp [declared, items, valid, definitionOf, Function.comp_def]

theorem calleeIn_callHead (environment : Environment) (span : Span) (attributes : List Attribute)
    (body : List Node) (paired : arguments.length = parameters.length) :
    calleeIn environment span (some (definitionOf parameters body))
      (callHead name arguments attributes) = .ok (body, bindingsOf parameters arguments) := by
  have items : listItems (((callHead name arguments attributes).arguments.getD "").toList) =
      arguments.map LiteralArgument.print := by
    simp [callHead, LiteralArgument.listItems_printAll]
  simp [calleeIn, items, definitionOf, paired, bindingsIn_literals, bindingsOf, Except.map]

variable {parameters arguments}

theorem lookup_bindingsOf (distinct : (parameters.map VariableName.value).Nodup)
    (paired : arguments.length = parameters.length) :
    ∀ pair ∈ parameters.zip arguments,
      (bindingsOf parameters arguments).lookup pair.1.value = some pair.2.value := by
  intro pair mem
  apply lookup_eq_some_of_mem
  · rw [bindingsOf, List.map_reverse, (List.reverse_perm _).nodup_iff, List.map_fst_zip]
    · exact distinct
    · simp [paired]
  · rw [bindingsOf, List.mem_reverse, List.zip_map, List.mem_map]
    exact ⟨pair, mem, rfl⟩

end

/-! ### The mixin that was declared last -/

section

variable {name : String} {definition : MixinDefinition}

theorem follow_undeclaredInside :
    Mixins.Follow (Node.UndeclaredInside name) (Mixins.Have (Node.Undeclared name)) where
  bodies given entry member node inside := (given entry member node inside).inside
  declare := by
    intro node head body mixins parameters found declares given entry member
    rcases List.mem_cons.mp member with rfl | member
    · exact found node node.self_mem_walk _ declares
    · exact given entry (List.mem_filter.mp member).1

/-- Where the mixin is not declared, it stays what it was. -/
theorem follow_undeclared :
    Mixins.Follow (Node.Undeclared name) fun mixins =>
      mixins.Have (Node.Undeclared name) ∧ mixins.lookup name = some definition where
  bodies given entry member node inside := given.1 entry member node inside
  declare := by
    intro node head body mixins parameters found declares given
    refine ⟨?_, ?_⟩
    · rintro entry (_ | ⟨_, member⟩)
      · exact Node.every_of_declaration? found declares
      · exact given.1 entry (List.mem_filter.mp member).1
    · have other : name ≠ head.name :=
        (found node node.self_mem_walk _ declares).symm
      rw [Mixins.declare, List.lookup_cons, beq_false_of_ne other, lookup_filter_ne _ other]
      exact given.2

end

section

variable {limit : Nat} {deeper : Deeper} {block : Rendering Unit} {node : Node}
  {children : List Node} {machine : Machine} {name : MixinName} {parameters : List VariableName}

/-- A declaration is declared and a call is called, with or without children. -/
theorem visit_of_mixin? {head : MixinHead} (isMixin : node.mixin? = some (head, children)) :
    visit limit deeper block node =
      if head.isCall then
        callMixin limit deeper head node.span (visitAll limit deeper block children)
      else declareMixin head node.span children := by
  unfold Node.mixin? at isMixin
  split at isMixin
  · cases isMixin
    simp [visit, leafText, visitAll, Node.span]
  · cases isMixin
    simp [visit, Node.span]
  · cases isMixin

theorem visit_declaration
    (isDeclaration : node.mixin? = some (declarationHead name parameters, children)) :
    visit limit deeper block node machine =
      .ok () ((machine.note (.mixinDeclared name.value parameters.length)).declare name.value
        (definitionOf parameters children)) := by
  have visited : visit limit deeper block node machine =
      declareMixin (declarationHead name parameters) node.span children machine := by
    rw [visit_of_mixin? isDeclaration]
    rfl
  rw [visited, declareMixin_eq, declared_declarationHead]
  simp [definitionOf, declarationHead]

theorem ensures_visit_declaration
    (isDeclaration : node.mixin? = some (declarationHead name parameters, children))
    {holds : Machine → Prop}
    (given : holds ((machine.note (.mixinDeclared name.value parameters.length)).declare name.value
      (definitionOf parameters children))) :
    Ensures (visit limit deeper block node) machine fun _ after => holds after := by
  rw [Ensures, visit_declaration isDeclaration]
  rintro _ _ ⟨⟩
  exact given

/-- What the nodes have says what becomes of the declared mixins. -/
theorem ensures_visitAll {holds : Node → Prop} [Node.Hereditary holds] {kept : Mixins → Prop}
    (follow : Mixins.Follow holds kept) {nodes : List Node} (found : Node.Every holds nodes)
    (given : kept machine.mixins) :
    Ensures (visitAll limit (levels limit limit) (pure ()) nodes) machine fun _ after =>
      kept after.mixins := by
  have supports : Rendering.Supports kept (fun _ => True)
      (visitAll limit (levels limit limit) (pure ()) nodes) :=
    supports_visitAll Node.renders_of_hereditary follow
      (supports_levels Node.renders_of_hereditary follow _ _) .pure found
  intro value after done
  simpa only [done] using supports machine given

/-- Behind a declaration, and as long as there is no other one of the same name, the mixin is the
one that was declared. Where something is rendered before the call, this may call what was declared
in front, so that the bodies count, too. -/
theorem ensures_lookup_declared {front between : List Node}
    (isDeclaration : node.mixin? = some (declarationHead name parameters, children))
    (inside : between ≠ [] → Node.Every (Node.UndeclaredInside name.value) (front ++ [node]))
    (undeclared : Node.Every (Node.Undeclared name.value) between) (fresh : machine.mixins = []) :
    Ensures (visitAll limit (levels limit limit) (pure ()) (front ++ node :: between)) machine
      fun _ after =>
        after.mixins.lookup name.value = some (definitionOf parameters children) := by
  rw [visitAll_append, visitAll]
  by_cases empty : between = []
  · subst empty
    refine .bind (fun _ _ _ => True.intro) fun _ middle _ => ?_
    exact .bind (ensures_visit_declaration isDeclaration (by simp [Machine.declare]))
      fun _ _ => .pure
  · have inside := Node.every_append.mp (inside empty)
    have none : Mixins.Have (Node.Undeclared name.value) machine.mixins := by
      simp [Mixins.Have, fresh]
    refine .bind (ensures_visitAll follow_undeclaredInside inside.1 none) fun _ middle given => ?_
    have isNode : node.UndeclaredInside name.value := inside.2 node (List.mem_singleton_self node)
    have isDeclared : node.declaration? = some (declarationHead name parameters, children) := by
      simp [Node.declaration?, isDeclaration, declarationHead]
    have bodies : Mixins.Have (Node.Undeclared name.value) (Mixins.declare middle.mixins name.value
        (definitionOf parameters children)) :=
      follow_undeclaredInside.declare isNode isDeclared given
    refine .bind (ensures_visit_declaration isDeclaration ⟨bodies, ?_⟩) fun _ after kept =>
      (ensures_visitAll follow_undeclared undeclared kept).mono fun _ _ => And.right
    simp [Machine.declare]

/-- At the call the body is rendered in a state in which the parameters are bound. -/
theorem visit_call {arguments : List LiteralArgument}
    (paired : arguments.length = parameters.length) (depth : Nat) {attributes : List Attribute}
    (isCall : node.mixin? = some (callHead name arguments attributes, children))
    {body : List Node}
    (isDeclared : machine.mixins.lookup name.value = some (definitionOf parameters body)) :
    visit limit (levels limit (depth + 1)) block node machine =
      bracket (fun machine => (machine.frames.size, machine.scope))
        (fun machine => machine.entered name.value (bindingsOf parameters arguments))
        (fun (frames, scope) machine => machine.leave frames scope)
        (visitAll limit (levels limit depth)
          (visitAll limit (levels limit (depth + 1)) block children) body) machine := by
  have called : visit limit (levels limit (depth + 1)) block node machine =
      callMixin limit (levels limit (depth + 1)) (callHead name arguments attributes) node.span
        (visitAll limit (levels limit (depth + 1)) block children) machine := by
    rw [visit_of_mixin? isCall]
    rfl
  have found : machine.mixins.lookup (callHead name arguments attributes).name =
      some (definitionOf parameters body) := isDeclared
  rw [called, callMixin_eq, found, calleeIn_callHead name parameters arguments _ _ _ _ paired]
  rfl

end

/-! ### Inside of a body -/

namespace Machine

/-- The second state is in the scope of the first: the same calls are under way, the current frame
is the same, and of the frames none is missing. -/
structure Hosts (outer inner : Machine) : Prop where
  frames : ∀ (index : Nat) (frame : Frame), outer.frames[index]? = some frame →
    inner.frames[index]? = some frame
  calls : inner.calls = outer.calls
  scope : inner.scope = outer.scope

namespace Hosts

variable {first second third : Machine}

theorem refl (machine : Machine) : machine.Hosts machine :=
  ⟨fun _ _ found => found, rfl, rfl⟩

theorem trans (left : first.Hosts second) (right : second.Hosts third) : first.Hosts third :=
  ⟨fun index frame found => right.frames index frame (left.frames index frame found),
    right.calls.trans left.calls, right.scope.trans left.scope⟩

theorem of_sameContext (same : first.SameContext second) : first.Hosts second :=
  ⟨fun _ _ found => same.frames ▸ found, same.calls, same.scope⟩

/-- A body asks for the block of its call, and this is rendered in the scope of the call. -/
theorem suspend {machine asked : Machine} {name : String} {bindings : List (String × String)}
    (inBody : (machine.entered name bindings).Hosts asked) {call : Call} {others : List Call}
    (calls : asked.calls = call :: others) : machine.Hosts (asked.suspend call) := by
  have same := inBody.calls.symm.trans calls
  simp only [entered, enter, note, List.cons.injEq] at same
  rcases same with ⟨rfl, rfl⟩
  refine ⟨fun index frame found => inBody.frames index frame ?_, ?_, rfl⟩
  · have lt := (Array.getElem?_eq_some_iff.mp found).1
    simpa [entered, enter, note, Array.getElem?_push, Nat.ne_of_lt lt] using found
  · simp [Machine.suspend, calls]

end Hosts

/-- What the current frame binds is found there. -/
theorem lookup?_of_frame {machine : Machine} {frame : Frame}
    (found : machine.frames[machine.scope]? = some frame) {name value : String}
    (bound : frame.bindings.lookup name = some value) : machine.lookup? name = some value := by
  have lt := (Array.getElem?_eq_some_iff.mp found).1
  cases size : machine.frames.size with
  | zero => omega
  | succ steps => simp [lookup?, size, find?, found, bound]

end Machine

/-- Rendering some nodes comes to others in some state: to later siblings, to the content of a node,
in front of which something is written, or to the block of a call, once the body that is called asks
for it. So many levels of calls are left, and the block is that of the innermost call. -/
inductive Arrives (limit : Nat) : (remaining : Nat) → (block : Rendering Unit) →
    (nodes : List Node) → Machine → (goal : List Node) → (reached : Machine) → Prop where
  | here {remaining : Nat} {block : Rendering Unit} (nodes : List Node) (machine : Machine) :
      Arrives limit remaining block nodes machine nodes machine
  | next {remaining : Nat} {block : Rendering Unit} {node : Node} {rest goal : List Node}
      {machine middle reached : Machine}
      (visited : visit limit (levels limit remaining) block node machine = .ok () middle)
      (onwards : Arrives limit remaining block rest middle goal reached) :
      Arrives limit remaining block (node :: rest) machine goal reached
  | inside {remaining : Nat} {block : Rendering Unit} {span : Span} {label : Label}
      {children rest goal : List Node} {machine reached : Machine}
      (noMixin : ∀ head body, label ≠ .mixin head body) (text : String)
      (within : Arrives limit remaining block children (machine.write text) goal reached) :
      Arrives limit remaining block (.branch span label children :: rest) machine goal reached
  | inBlock {remaining : Nat} {block : Rendering Unit} {node : Node} {head : MixinHead}
      {children body rest others goal : List Node} {bindings : List (String × String)}
      {place : Span} {call : Call} {outer : List Call} {machine asked reached : Machine}
      (isCall : node.mixin? = some (head, children)) (calls : head.isCall = true)
      (callee : calleeIn machine.lookup? node.span (machine.mixins.lookup head.name) head =
        .ok (body, bindings))
      (asks : Arrives limit remaining (visitAll limit (levels limit (remaining + 1)) block children)
        body (machine.entered head.name bindings) (.leaf place .mixinBlock :: others) asked)
      (innermost : asked.calls = call :: outer)
      (within : Arrives limit (remaining + 1) block children (asked.suspend call) goal reached) :
      Arrives limit (remaining + 1) block (node :: rest) machine goal reached

/-- What rendering comes to is in the scope from which it started. -/
theorem Arrives.hosts {limit remaining : Nat} {block : Rendering Unit} {nodes goal : List Node}
    {machine reached : Machine}
    (arrives : Arrives limit remaining block nodes machine goal reached)
    (restores : block.Restores) : machine.Hosts reached := by
  induction arrives with
  | here => exact .refl _
  | @next remaining block node _ _ machine _ _ visited _ ih =>
      have kept := @restores_visit limit _ block (restores_levels limit remaining) restores node
        machine
      rw [visited] at kept
      exact (Machine.Hosts.of_sameContext kept).trans (ih restores)
  | inside _ text _ ih =>
      exact (Machine.Hosts.of_sameContext (restores_write text _)).trans (ih restores)
  | inBlock _ _ _ _ innermost _ ihAsks ihWithin =>
      have inBody := ihAsks (restores_visitAll (restores_levels limit _) restores _)
      exact (inBody.suspend innermost).trans (ihWithin restores)

/-- Wherever rendering the body of a call comes to, the parameters are bound as they were when the
call was entered. -/
theorem Arrives.lookup?_eq {limit remaining : Nat} {block : Rendering Unit} {body goal : List Node}
    {machine reached : Machine} {mixin : String} {bindings : List (String × String)}
    (arrives : Arrives limit remaining block body (machine.entered mixin bindings) goal reached)
    (restores : block.Restores) {name value : String}
    (bound : bindings.lookup name = some value) : reached.lookup? name = some value := by
  have hosts := arrives.hosts restores
  refine Machine.lookup?_of_frame (hosts.frames _ ⟨bindings, some machine.scope⟩ ?_) bound
  rw [hosts.scope]
  simp [Machine.entered, Machine.enter, Machine.note]

end Offside.Html
