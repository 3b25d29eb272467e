import Offside.Html.Render
import Offside.Proofs.Parallel
import Offside.Proofs.Renumbering.Document
import Offside.Proofs.Renumbering.Linking

/-!
# Rendering and line numbers

A page shows no line number, and none decides what it shows. The machine keeps the bodies of mixins,
which may have other line numbers.
-/

namespace Offside.Html

open Computing

variable {line : Nat → Nat}

def MixinDefinition.renumber (line : Nat → Nat) (definition : MixinDefinition) : MixinDefinition :=
  { definition with body := Node.renumberAll line definition.body }

/-- The same state with other line numbers in the mixins. What was noted may differ. -/
structure Machine.Renumbered (line : Nat → Nat) (machine other : Machine) : Prop where
  output : other.output = machine.output
  mixins : other.mixins = machine.mixins.map (Prod.map id (MixinDefinition.renumber line))
  frames : other.frames = machine.frames
  calls : other.calls = machine.calls
  scope : other.scope = machine.scope

/-- From the state with other line numbers the other computation does the same. -/
def Rendering.Renumbers {α : Type} (line : Nat → Nat) (action other : Rendering α) : Prop :=
  Parallel (Machine.Renumbered line) (fun value value' => value' = value)
    (fun fault fault' => fault' = { fault with span := fault.span.renumber line }) action other

namespace Rendering.Renumbers

variable {α β : Type} {action other : Rendering α} {next otherNext : α → Rendering β}

theorem pure (value : α) : Renumbers line (pure value) (pure value) :=
  Parallel.pure rfl

theorem bind (before : Renumbers line action other)
    (after : ∀ value, Renumbers line (next value) (otherNext value)) :
    Renumbers line (action >>= next) (other >>= otherNext) :=
  Parallel.bind_change before after

theorem fail (span : Span) (cause : RenderFault) :
    Renumbers line (Rendering.fail (α := α) span cause)
      (Rendering.fail (span.renumber line) cause) :=
  Parallel.throw rfl

theorem get_bind {next otherNext : Machine → Rendering β}
    (each : ∀ machine machine', machine.Renumbered line machine' →
      Renumbers line (next machine) (otherNext machine')) :
    Renumbers line (get >>= next) (get >>= otherNext) :=
  Parallel.get_bind each

theorem write (text : String) : Renumbers line (write text) (write text) :=
  Parallel.modify (fun _ _ given =>
    { given with output := congrArg (· ++ text) given.output }) rfl

theorem lookup (name : String) (span : Span) :
    Renumbers line (lookup name span) (lookup name (span.renumber line)) := by
  refine .get_bind fun machine machine' given => ?_
  have same : machine'.lookup? name = machine.lookup? name := by
    rw [Machine.lookup?, Machine.lookup?, given.frames, given.scope]
  rw [same]
  cases machine.lookup? name with
  | none => exact .fail _ _
  | some value => exact .pure value

/-- What is kept of related states is the same, and the ways in and back keep states related. -/
theorem bracket {keep : Machine → α} {into : Machine → Machine} {back : α → Machine → Machine}
    {action other : Rendering Unit}
    (kept : ∀ machine machine', machine.Renumbered line machine' → keep machine' = keep machine)
    (enters : ∀ machine machine', machine.Renumbered line machine' →
      (into machine).Renumbered line (into machine'))
    (leaves : ∀ kept machine machine', machine.Renumbered line machine' →
      (back kept machine).Renumbered line (back kept machine'))
    (inside : Renumbers line action other) :
    Renumbers line (bracket keep into back action) (bracket keep into back other) := by
  intro machine machine' given
  have done := inside (enters _ _ given)
  unfold Rendering.bracket
  rw [kept _ _ given]
  revert done
  dsimp only
  cases action (into machine) <;> cases other (into machine')
  · exact fun done => ⟨rfl, leaves _ _ _ done.2⟩
  · exact id
  · exact id
  · exact fun done => ⟨done.1, leaves _ _ _ done.2⟩

end Rendering.Renumbers

open Rendering

/-! ### What is written of a tag -/

theorem classTexts_renumber (attributes : List Attribute) :
    classTexts (attributes.map (Attribute.renumber line)) = classTexts attributes := by
  unfold classTexts
  rw [List.filter_map, List.filterMap_map]
  rfl

theorem attributesWith_renumber (classes : List String) (written : Bool)
    (attributes : List Attribute) :
    attributesWith classes written (attributes.map (Attribute.renumber line)) =
      attributesWith classes written attributes := by
  induction attributes generalizing written with
  | nil => rfl
  | cons entry rest ih =>
      simp only [List.map_cons, attributesWith, ih]
      rfl

theorem startTag_renumber (name : String) (attributes : List Attribute) :
    startTag name (attributes.map (Attribute.renumber line)) = startTag name attributes := by
  rw [startTag, startTag, attributesText, attributesText, classTexts_renumber,
    attributesWith_renumber]

theorem renumbers_element (name : String) (span : Span) (selfClosing : Bool)
    (attributes : List Attribute) (children : List Node) {content content' : Rendering Unit}
    (inside : Renumbers line content content') :
    Renumbers line (element name span selfClosing attributes children content)
      (element name (span.renumber line) selfClosing
        (attributes.map (Attribute.renumber line)) (Node.renumberAll line children) content') := by
  have sameContent : (Node.renumberAll line children).any (!·.isBlankText) =
      children.any (!·.isBlankText) := by
    simp [Node.renumberAll_eq_map, Function.comp_def]
  unfold element
  rw [startTag_renumber, sameContent]
  refine .bind (.write _) fun _ => ?_
  split
  · split
    · exact .fail _ _
    · exact .pure ()
  · exact .bind inside fun _ => .write _

/-! ### Mixins -/

theorem renumbers_argumentValue (argument : List Char) (span : Span) :
    Renumbers line (argumentValue argument span) (argumentValue argument (span.renumber line)) := by
  unfold argumentValue
  split
  · exact .pure _
  · split
    · exact .pure _
    · split
      · exact .lookup _ _
      · exact .fail _ _

theorem renumbers_bindArguments (span : Span) (pairs : List (String × List Char))
    (bindings : List (String × String)) :
    Renumbers line (bindArguments span pairs bindings)
      (bindArguments (span.renumber line) pairs bindings) := by
  induction pairs generalizing bindings with
  | nil => exact .pure _
  | cons pair rest ih => exact .bind (renumbers_argumentValue _ _) fun value => ih _

theorem Machine.Renumbered.note {machine machine' : Machine}
    (given : machine.Renumbered line machine') (event event' : Event) :
    (machine.note event).Renumbered line (machine'.note event') :=
  ⟨given.output, given.mixins, given.frames, given.calls, given.scope⟩

theorem Machine.Renumbered.declare {machine machine' : Machine}
    (given : machine.Renumbered line machine') (name : String) (definition : MixinDefinition) :
    (machine.declare name definition).Renumbered line
      (machine'.declare name (definition.renumber line)) where
  output := given.output
  mixins := by
    rw [Machine.declare, Machine.declare, given.mixins, List.filter_map]
    rfl
  frames := given.frames
  calls := given.calls
  scope := given.scope

theorem renumbers_declareMixin (head : MixinHead) (span : Span) (body : List Node) :
    Renumbers line (declareMixin head span body)
      (declareMixin (head.renumber line) (span.renumber line) (Node.renumberAll line body)) := by
  unfold declareMixin
  simp only [MixinHead.renumber]
  split
  · exact .fail _ _
  · refine Parallel.modify (fun machine machine' given => ?_) rfl
    exact (given.note _ _).declare head.name ⟨_, body⟩

/-- Two ways to render one level deeper that do the same with bodies that differ in line numbers. -/
def Deeper.Renumbers (line : Nat → Nat) : Deeper → Deeper → Prop
  | none, none => True
  | some deeper, some deeper' => ∀ block block' body, Rendering.Renumbers line block block' →
      Rendering.Renumbers line (deeper block body) (deeper' block' (Node.renumberAll line body))
  | _, _ => False

theorem Machine.Renumbered.lookup_mixins {machine machine' : Machine}
    (given : machine.Renumbered line machine') (name : String) :
    machine'.mixins.lookup name =
      (machine.mixins.lookup name).map (MixinDefinition.renumber line) := by
  rw [given.mixins]
  induction machine.mixins with
  | nil => rfl
  | cons entry rest ih =>
      rcases entry with ⟨found, definition⟩
      simp only [List.map_cons, Prod.map, id, List.lookup_cons, ih]
      split <;> rfl

section

variable {limit : Nat} {deeper deeper' : Deeper}

theorem renumbers_callMixin (deepens : deeper.Renumbers line deeper') (head : MixinHead)
    (span : Span) {block block' : Rendering Unit} (inside : Renumbers line block block') :
    Renumbers line (callMixin limit deeper head span block)
      (callMixin limit deeper' (head.renumber line) (span.renumber line) block') := by
  refine .get_bind fun machine machine' given => ?_
  have sameName : (head.renumber line).name = head.name := rfl
  have sameArguments : (head.renumber line).arguments = head.arguments := rfl
  rw [sameName, given.lookup_mixins, sameArguments]
  cases machine.mixins.lookup head.name with
  | none => exact .fail _ _
  | some definition =>
      have sameParameters : (definition.renumber line).parameters = definition.parameters := rfl
      simp only [Option.map_some, sameParameters]
      split
      case' isTrue => refine .bind (.fail _ _) fun _ => ?_
      all_goals
        refine .bind (renumbers_bindArguments _ _ _) fun bindings => ?_
        cases deeper <;> cases deeper'
        · exact .fail _ _
        · exact deepens.elim
        · exact deepens.elim
        · refine .bracket ?_ ?_ ?_ (deepens _ _ _ inside)
          · intro machine machine' given
            rw [given.frames, given.scope]
          · intro machine machine' given
            refine ⟨given.output, given.mixins, ?_, ?_, ?_⟩
            · simp [Machine.note, Machine.enter, given.frames, given.scope]
            · simp [Machine.note, Machine.enter, given.calls, given.scope]
            · simp [Machine.note, Machine.enter, given.frames]
          · intro kept machine machine' given
            refine ⟨given.output, given.mixins, ?_, ?_, rfl⟩
            · simp [Machine.leave, given.frames]
            · simp [Machine.leave, given.calls]

theorem renumbers_mixinBlock (span : Span) {block block' : Rendering Unit}
    (inside : Renumbers line block block') :
    Renumbers line (mixinBlock span block) (mixinBlock (span.renumber line) block') := by
  refine .get_bind fun machine machine' given => ?_
  rw [given.calls]
  cases machine.calls with
  | nil => exact .fail _ _
  | cons call others =>
      refine .bracket ?_ ?_ ?_ inside
      · exact fun machine machine' given => given.scope
      · intro machine machine' given
        refine ⟨given.output, given.mixins, given.frames, ?_, rfl⟩
        simp [Machine.suspend, given.calls]
      · intro scope machine machine' given
        refine ⟨given.output, given.mixins, given.frames, ?_, rfl⟩
        simp [Machine.resume, given.calls]

/-! ### Nodes -/

theorem renumbers_leafText (deepens : deeper.Renumbers line deeper') {block block' : Rendering Unit}
    (inside : Renumbers line block block') (span : Span) (content : Leaf) :
    Renumbers line (leafText limit deeper block span content)
      (leafText limit deeper' block' (span.renumber line) (content.renumber line)) := by
  cases content with
  | mixinBlock => exact renumbers_mixinBlock span inside
  | yieldSlot | doctype => exact .pure ()
  | text value html => exact .write value
  | code expression buffered escaped inLine =>
      simp only [Leaf.renumber, leafText]
      split
      · exact .bind (.lookup _ _) fun value => .write _
      · exact .pure ()
  | comment value buffered =>
      simp only [Leaf.renumber, leafText]
      split
      · exact .write _
      · exact .pure ()
  | mixin head =>
      simp only [Leaf.renumber, leafText]
      have sameRole : (head.renumber line).isCall = head.isCall := rfl
      rw [sameRole]
      split
      · exact renumbers_callMixin deepens head span (.pure ())
      · exact renumbers_declareMixin head span []

mutual

theorem renumbers_visit (deepens : deeper.Renumbers line deeper') {block block' : Rendering Unit}
    (inside : Renumbers line block block') : ∀ node : Node,
      Renumbers line (visit limit deeper block node)
        (visit limit deeper' block' (node.renumber line))
  | .leaf span content => by
      simp only [Node.renumber_leaf, visit]
      exact renumbers_leafText deepens inside span content
  | .branch span label children => by
      have below : Renumbers line (visitAll limit deeper block children)
          (visitAll limit deeper' block' (Node.renumberAll line children)) :=
        renumbers_visitAll deepens inside children
      cases label with
      | block =>
          simp only [Node.renumber_branch, Label.renumber, visit]
          exact below
      | namedBlock | filter =>
          simp only [Node.renumber_branch, Label.renumber, visit]
          exact .fail _ _
      | tag head body =>
          simp only [Node.renumber_branch, Label.renumber, visit]
          exact renumbers_element _ _ _ _ _ below
      | variableTag head body =>
          simp only [Node.renumber_branch, Label.renumber, visit]
          exact .bind (.lookup _ _) fun name => renumbers_element _ _ _ _ _ below
      | mixin head body =>
          simp only [Node.renumber_branch, Label.renumber, visit]
          have sameRole : (head.renumber line).isCall = head.isCall := rfl
          rw [sameRole]
          split
          · exact renumbers_callMixin deepens head span below
          · exact renumbers_declareMixin head span children
      | blockComment value buffered body =>
          simp only [Node.renumber_branch, Label.renumber, visit]
          split
          · exact .bind (.write _) fun _ => .bind below fun _ => .write _
          · exact .pure ()
  | .file span use _ _ _ => by
      simp only [Node.renumber_file, visit, FileUse.kind_renumber]
      exact .fail _ _

theorem renumbers_visitAll (deepens : deeper.Renumbers line deeper')
    {block block' : Rendering Unit} (inside : Renumbers line block block') : ∀ nodes : List Node,
      Renumbers line (visitAll limit deeper block nodes)
        (visitAll limit deeper' block' (Node.renumberAll line nodes))
  | [] => by
      simp only [Node.renumberAll_nil, visitAll]
      exact .pure ()
  | node :: rest => by
      simp only [Node.renumberAll_cons, visitAll]
      exact .bind (renumbers_visit deepens inside node) fun _ =>
        renumbers_visitAll deepens inside rest

end

end

theorem renumbers_levels (limit remaining : Nat) :
    (levels limit remaining).Renumbers line (levels limit remaining) := by
  induction remaining with
  | zero => trivial
  | succ remaining ih => exact fun _ _ body inside => renumbers_visitAll ih inside body

/-- A document with other line numbers is rendered as the same page. -/
theorem renumbers_render (line : Nat → Nat) (document : Document) (options : RenderOptions) :
    Parallel (fun _ _ => True) (fun page page' => page' = page)
      (fun fault fault' => fault' = { fault with span := fault.span.renumber line })
      (render document options) (render (document.renumber line) options) := by
  intro events events' _
  have start : (Machine.start options.globals doctype events).Renumbered line
      (Machine.start options.globals doctype events') :=
    ⟨rfl, rfl, rfl, rfl, rfl⟩
  have deepens := @renumbers_levels line options.maxMixinDepth options.maxMixinDepth
  have done := @renumbers_visitAll line options.maxMixinDepth _ _ deepens _ _ (.pure ())
    document.nodes _ _ start
  simp only [render, Document.renumber]
  revert done
  cases visitAll options.maxMixinDepth (levels options.maxMixinDepth options.maxMixinDepth)
      (pure ()) document.nodes (Machine.start options.globals doctype events) <;>
    cases visitAll options.maxMixinDepth (levels options.maxMixinDepth options.maxMixinDepth)
      (pure ()) (Node.renumberAll line document.nodes)
      (Machine.start options.globals doctype events')
  · exact fun done => ⟨done.2.output, trivial⟩
  · exact id
  · exact id
  · exact fun done => ⟨done.1, trivial⟩

end Offside.Html
