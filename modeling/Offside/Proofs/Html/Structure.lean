import Offside.Html.Render
import Offside.Proofs.Computation

/-!
# Values do not shape the page

Where every variable is shown escaped and no tag is named by a variable, the values of the global
variables fill gaps in the page and do nothing else. A sketch is a machine in which these values are
still open: instead of texts it holds pieces, each of them a fixed text or the name of a global
variable. Rendering does the same on all machines of a sketch, since no step looks at a value. So a
page has one list of pieces for all values, and in a gap stands a text without special characters,
apart from those of the entities that escaping makes.
-/

namespace Offside

/-- The node is no tag named by a variable, and no variable that is written as it is. -/
def Node.KeepsStructure : Node → Prop
  | .leaf _ (.code _ _ escaped _) => escaped = true
  | .branch _ (.variableTag ..) _ => False
  | _ => True

namespace Html

open Computing Rendering

/-- A text that is fixed, or the value of a global variable. -/
inductive Piece (names : List String) where
  | fixed (text : String)
  | global (name : String) (known : name ∈ names)

namespace Piece

variable {names : List String}

/-- The text itself, for some values of the global variables. -/
def value (globals : String → String) : Piece names → String
  | fixed text => text
  | global name _ => globals name

/-- The text as it stands in a page, where a value is escaped. -/
def shown (globals : String → String) : Piece names → String
  | fixed text => text
  | global name _ => escape (globals name)

/-- The piece of a page for an escaped text. -/
def escaped : Piece names → Piece names
  | fixed text => fixed (escape text)
  | global name known => global name known

@[simp]
theorem shown_escaped (globals : String → String) (piece : Piece names) :
    piece.escaped.shown globals = escape (piece.value globals) := by
  cases piece <;> rfl

end Piece

/-- The page that some pieces make. -/
def pageOf {names : List String} (pieces : List (Piece names)) (globals : String → String) :
    String :=
  String.join (pieces.map (Piece.shown globals))

/-- Bindings with values that are still open. -/
abbrev OpenBindings (names : List String) := List (String × Piece names)

namespace OpenBindings

variable {names : List String}

/-- The bindings for some values of the global variables. -/
def close (bindings : OpenBindings names) (globals : String → String) : List (String × String) :=
  bindings.map fun entry => (entry.1, entry.2.value globals)

theorem lookup_close (bindings : OpenBindings names) (globals : String → String) (name : String) :
    (bindings.close globals).lookup name =
      (bindings.lookup name).map (Piece.value globals) := by
  induction bindings with
  | nil => rfl
  | cons entry rest ih =>
      simp only [close, List.map_cons] at ih ⊢
      rw [List.lookup_cons, List.lookup_cons]
      cases name == entry.1 with
      | true => rfl
      | false => exact ih

end OpenBindings

/-- A frame with values that are still open. -/
structure OpenFrame (names : List String) where
  bindings : OpenBindings names
  parent : Option Nat

/-- A machine with values that are still open. The bodies of all mixins keep the structure. -/
structure Sketch (names : List String) where
  output : List (Piece names)
  mixins : List (String × MixinDefinition)
  frames : Array (OpenFrame names)
  calls : List Call
  scope : Nat
  events : Array Event
  keeps : ∀ entry ∈ mixins, ∀ node ∈ Node.walkAll entry.2.body, node.KeepsStructure

namespace Sketch

variable {names : List String}

/-- The machine for some values of the global variables. -/
def machine (sketch : Sketch names) (globals : String → String) : Machine where
  output := pageOf sketch.output globals
  mixins := sketch.mixins
  frames := sketch.frames.map fun frame => ⟨frame.bindings.close globals, frame.parent⟩
  calls := sketch.calls
  scope := sketch.scope
  events := sketch.events

/-- A name is bound for all values or for none. -/
theorem find?_machine (sketch : Sketch names) (name : String) (steps scope : Nat) :
    (∀ globals, Machine.find? (sketch.machine globals).frames name steps scope = none) ∨
      ∃ piece : Piece names, ∀ globals,
        Machine.find? (sketch.machine globals).frames name steps scope =
          some (piece.value globals) := by
  induction steps generalizing scope with
  | zero =>
      left
      intro globals
      rfl
  | succ steps ih =>
      cases found : sketch.frames[scope]? with
      | none =>
          left
          intro globals
          simp [Machine.find?, machine, found]
      | some frame =>
          cases bound : frame.bindings.lookup name with
          | some piece =>
              right
              refine ⟨piece, ?_⟩
              intro globals
              simp [Machine.find?, machine, found, OpenBindings.lookup_close, bound]
          | none =>
              cases parent : frame.parent with
              | none =>
                  left
                  intro globals
                  simp [Machine.find?, machine, found, OpenBindings.lookup_close, bound, parent]
              | some outer =>
                  simpa [Machine.find?, machine, found, OpenBindings.lookup_close, bound, parent]
                    using ih outer

/-- Add a piece to the page. -/
def write (sketch : Sketch names) (piece : Piece names) : Sketch names :=
  { sketch with output := sketch.output ++ [piece] }

theorem machine_write (sketch : Sketch names) (piece : Piece names) (globals : String → String) :
    (sketch.write piece).machine globals =
      (sketch.machine globals).write (piece.shown globals) := by
  simp [write, machine, Machine.write, pageOf, String.join_append]

/-- Note an event. -/
def note (sketch : Sketch names) (event : Event) : Sketch names :=
  { sketch with events := sketch.events.push event }

/-- Declare a mixin whose body keeps the structure. -/
def declare (sketch : Sketch names) (name : String) (definition : MixinDefinition)
    (keeps : ∀ node ∈ Node.walkAll definition.body, node.KeepsStructure) : Sketch names :=
  { sketch with
    mixins := (name, definition) :: sketch.mixins.filter fun (other, _) => other ≠ name
    keeps := by
      intro entry member
      rcases List.mem_cons.mp member with rfl | member
      · exact keeps
      · exact sketch.keeps entry (List.mem_filter.mp member).1 }

/-- Enter a mixin with bindings that are still open. -/
def enter (sketch : Sketch names) (bindings : OpenBindings names) : Sketch names :=
  { sketch with
    frames := sketch.frames.push ⟨bindings, some sketch.scope⟩
    calls := ⟨sketch.scope⟩ :: sketch.calls
    scope := sketch.frames.size }

/-- Leave a mixin that was entered with some number of frames and from some scope. -/
def leave (sketch : Sketch names) (frames scope : Nat) : Sketch names :=
  { sketch with
    frames := sketch.frames.shrink frames
    calls := sketch.calls.tail
    scope := scope }

/-- Change the calls that are under way and the scope. -/
def move (sketch : Sketch names) (calls : List Call) (scope : Nat) : Sketch names :=
  { sketch with calls := calls, scope := scope }

theorem machine_enter (sketch : Sketch names) (bindings : OpenBindings names)
    (globals : String → String) :
    (sketch.enter bindings).machine globals =
      (sketch.machine globals).enter (bindings.close globals) := by
  simp [enter, machine, Machine.enter]

theorem machine_leave (sketch : Sketch names) (frames scope : Nat) (globals : String → String) :
    (sketch.leave frames scope).machine globals =
      (sketch.machine globals).leave frames scope := by
  simp [leave, machine, Machine.leave]

end Sketch

variable {names : List String} {α β γ δ : Type} {sketch : Sketch names}

/-- On the machines of a sketch a computation does the same, whatever the values are: on all of them
it fails with one fault, or it gives what `close` makes of one value. -/
def UniformAt (sketch : Sketch names) (close : (String → String) → β → α)
    (action : (String → String) → Rendering α) : Prop :=
  (∃ fault, ∀ globals, ∃ after,
      action globals (sketch.machine globals) = .error fault after) ∨
    ∃ (value : β) (after : Sketch names), ∀ globals,
      action globals (sketch.machine globals) = .ok (close globals value) (after.machine globals)

/-- A computation does the same whatever the values are, and gives the text of a piece. -/
abbrev UniformTextAt (sketch : Sketch names) (action : Rendering String) : Prop :=
  UniformAt sketch (fun globals (piece : Piece names) => piece.value globals) fun _ => action

/-- A computation does the same whatever the values are. -/
def Uniform (names : List String) (action : Rendering Unit) : Prop :=
  ∀ sketch : Sketch names, UniformAt sketch (fun _ => id) fun _ => action

namespace UniformAt

variable {close : (String → String) → β → α} {action : (String → String) → Rendering α}
  {closeNext : (String → String) → δ → γ} {next : (String → String) → α → Rendering γ}

theorem pure (value : β) : UniformAt sketch close fun globals => pure (close globals value) :=
  .inr ⟨value, sketch, fun _ => rfl⟩

theorem fail (span : Span) (cause : RenderFault) :
    UniformAt sketch close fun _ => Rendering.fail span cause :=
  .inl ⟨_, fun _ => ⟨_, rfl⟩⟩

theorem fail_bind (span : Span) (cause : RenderFault) :
    UniformAt sketch closeNext fun globals =>
      (Rendering.fail span cause : Rendering α) >>= next globals :=
  .inl ⟨_, fun _ => ⟨_, rfl⟩⟩

theorem bind (first : UniformAt sketch close action)
    (second : ∀ (value : β) (after : Sketch names),
      UniformAt after closeNext fun globals => next globals (close globals value)) :
    UniformAt sketch closeNext fun globals => action globals >>= next globals := by
  rcases first with ⟨fault, failed⟩ | ⟨value, middle, done⟩
  · left
    refine ⟨fault, ?_⟩
    intro globals
    rcases failed globals with ⟨after, failed⟩
    exact ⟨after, bind_of_error failed⟩
  · rcases second value middle with ⟨fault, failed⟩ | ⟨result, last, finished⟩
    · left
      refine ⟨fault, ?_⟩
      intro globals
      rcases failed globals with ⟨after, failed⟩
      exact ⟨after, (bind_of_ok (done globals)).trans failed⟩
    · right
      refine ⟨result, last, ?_⟩
      intro globals
      exact (bind_of_ok (done globals)).trans (finished globals)

theorem get_bind {next : (String → String) → Machine → Rendering α}
    (each : UniformAt sketch close fun globals => next globals (sketch.machine globals)) :
    UniformAt sketch close fun globals => get >>= next globals :=
  each

/-- A change of the state, and the way back, that can be made on sketches as well. -/
theorem bracket {keep : Machine → γ} {into : (String → String) → Machine → Machine}
    {back : γ → Machine → Machine} {content : Rendering Unit} {inside : Sketch names}
    {outside : Sketch names → Sketch names}
    (uniform : UniformAt inside (fun _ => id) fun _ => content)
    (entered : ∀ globals, into globals (sketch.machine globals) = inside.machine globals)
    (left : ∀ after globals, back (keep (sketch.machine globals)) (Sketch.machine after globals) =
      (outside after).machine globals) :
    UniformAt sketch (fun _ => id) fun globals =>
      Rendering.bracket keep (into globals) back content := by
  rcases uniform with ⟨fault, failed⟩ | ⟨value, after, done⟩
  · left
    refine ⟨fault, ?_⟩
    intro globals
    rcases failed globals with ⟨after, failed⟩
    refine ⟨back (keep (sketch.machine globals)) after, ?_⟩
    simp only [Rendering.bracket, entered, failed]
  · right
    refine ⟨value, outside after, ?_⟩
    intro globals
    simp only [Rendering.bracket, entered, done, left]

theorem write {text : (String → String) → String} (piece : Piece names)
    (shown : ∀ globals, text globals = piece.shown globals) :
    UniformAt sketch (fun _ => id) fun globals => Rendering.write (text globals) := by
  right
  refine ⟨(), sketch.write piece, ?_⟩
  intro globals
  rw [sketch.machine_write, ← shown]
  rfl

end UniformAt

namespace Uniform

theorem pure : Uniform names (pure ()) :=
  fun _ => .pure ()

theorem fail (span : Span) (cause : RenderFault) : Uniform names (fail span cause) :=
  fun _ => .fail span cause

theorem write (text : String) : Uniform names (write text) :=
  fun _ => .write (.fixed text) fun _ => rfl

theorem seq {action next : Rendering Unit} (first : Uniform names action)
    (second : Uniform names next) : Uniform names (action >>= fun _ => next) :=
  fun sketch => (first sketch).bind fun _ after => second after

end Uniform

/-! ### Values -/

theorem uniform_lookup (name : String) (span : Span) :
    UniformTextAt sketch (lookup name span) := by
  rcases sketch.find?_machine name sketch.frames.size sketch.scope with none | ⟨piece, some⟩
  · left
    refine ⟨⟨.undefinedVariable name, span, .none⟩, ?_⟩
    intro globals
    refine ⟨sketch.machine globals, ?_⟩
    have missing : (sketch.machine globals).lookup? name = .none := by
      simpa [Machine.lookup?, Sketch.machine] using none globals
    refine get_bind_eq.trans ?_
    simp only [missing]
    rfl
  · right
    refine ⟨piece, sketch, ?_⟩
    intro globals
    have found : (sketch.machine globals).lookup? name = .some (piece.value globals) := by
      simpa [Machine.lookup?, Sketch.machine] using some globals
    refine get_bind_eq.trans ?_
    simp only [found]
    rfl

theorem uniform_argumentValue (argument : List Char) (span : Span) :
    UniformTextAt sketch (argumentValue argument span) := by
  unfold argumentValue
  split
  · exact .pure (Piece.fixed _)
  · split
    · exact .pure (Piece.fixed _)
    · split
      · exact uniform_lookup _ span
      · exact .fail span _

theorem uniform_bindArguments (span : Span) (pairs : List (String × List Char))
    (bindings : OpenBindings names) :
    UniformAt sketch (fun globals (found : OpenBindings names) => found.close globals)
      fun globals => bindArguments span pairs (bindings.close globals) := by
  induction pairs generalizing sketch bindings with
  | nil => exact .pure bindings
  | cons pair rest ih =>
      apply (uniform_argumentValue pair.2 span).bind
      intro piece after
      exact ih ((pair.1, piece) :: bindings)

theorem uniform_showVariable (expression : String) (span : Span) :
    Uniform names (showVariable expression true span) := by
  intro sketch
  apply (uniform_lookup expression span).bind
  intro piece after
  apply UniformAt.write piece.escaped
  intro globals
  simp [written]

/-! ### Elements and mixins -/

theorem uniform_element {name : String} {span : Span} {selfClosing : Bool}
    {attributes : List Attribute} {children : List Node} {content : Rendering Unit}
    (uniform : Uniform names content) :
    Uniform names (element name span selfClosing attributes children content) := by
  apply (Uniform.write _).seq
  split
  · split
    · exact .fail span _
    · exact .pure
  · exact uniform.seq (.write _)

theorem uniform_declareMixin (head : MixinHead) (span : Span) {body : List Node}
    (keeps : ∀ node ∈ Node.walkAll body, node.KeepsStructure) :
    Uniform names (declareMixin head span body) := by
  unfold declareMixin
  dsimp only
  split
  · exact .fail span _
  · intro sketch
    right
    exact ⟨(), (sketch.note _).declare head.name _ keeps, fun _ => rfl⟩

/-- What is rendered one level deeper does the same whatever the values are, if the block does. -/
def Deeper.Uniform (names : List String) (deeper : Deeper) : Prop :=
  ∀ render ∈ deeper, ∀ block, Html.Uniform names block → ∀ body,
    (∀ node ∈ Node.walkAll body, node.KeepsStructure) → Html.Uniform names (render block body)

section

variable {limit : Nat} {deeper : Deeper} {block : Rendering Unit}

theorem uniform_entered (name : String) (bindings : OpenBindings names)
    {content : Rendering Unit} (uniform : Uniform names content) :
    UniformAt sketch (fun _ => id) fun globals =>
      bracket (fun machine => (machine.frames.size, machine.scope))
        (fun machine =>
          (machine.enter (bindings.close globals)).note
            (.mixinCalled name (machine.enter (bindings.close globals)).calls.length))
        (fun kept machine => machine.leave kept.1 kept.2) content := by
  have entered : ∀ globals, ((sketch.machine globals).enter (bindings.close globals)).note
      (.mixinCalled name ((sketch.machine globals).enter (bindings.close globals)).calls.length) =
        ((sketch.enter bindings).note
          (.mixinCalled name (sketch.enter bindings).calls.length)).machine globals := by
    intro globals
    rw [← sketch.machine_enter]
    rfl
  have left : ∀ (after : Sketch names) (globals : String → String),
      (after.machine globals).leave (sketch.machine globals).frames.size
          (sketch.machine globals).scope =
        (after.leave sketch.frames.size sketch.scope).machine globals := by
    intro after globals
    have size : (sketch.machine globals).frames.size = sketch.frames.size := by
      simp [Sketch.machine]
    rw [size, Sketch.machine_leave]
    rfl
  exact .bracket (uniform _) entered left

theorem uniform_callMixin (below : deeper.Uniform names) (uniform : Uniform names block)
    (head : MixinHead) (span : Span) :
    Uniform names (callMixin limit deeper head span block) := by
  intro sketch
  apply UniformAt.get_bind
  cases known : sketch.mixins.lookup head.name with
  | none =>
      have missing (globals : String → String) :
          (sketch.machine globals).mixins.lookup head.name = none := known
      simp only [missing]
      exact .fail span _
  | some definition =>
      have found (globals : String → String) :
          (sketch.machine globals).mixins.lookup head.name = some definition := known
      simp only [found]
      split
      · exact .fail_bind span _
      · apply (uniform_bindArguments span _ []).bind
        intro bindings after
        cases deeper with
        | none => exact .fail span _
        | some render =>
            rcases List.lookup_eq_some_iff.mp known with ⟨before, others, split, -⟩
            have keeps : ∀ node ∈ Node.walkAll definition.body, node.KeepsStructure :=
              sketch.keeps (head.name, definition) (by simp [split])
            exact uniform_entered head.name bindings (below render rfl block uniform _ keeps)

theorem uniform_mixinBlock (uniform : Uniform names block) (span : Span) :
    Uniform names (mixinBlock span block) := by
  intro sketch
  apply UniformAt.get_bind
  cases calls : sketch.calls with
  | nil =>
      have none (globals : String → String) : (sketch.machine globals).calls = [] := calls
      simp only [none]
      exact .fail span _
  | cons call others =>
      have innermost (globals : String → String) :
          (sketch.machine globals).calls = call :: others := calls
      have suspended : ∀ globals, (sketch.machine globals).suspend call =
          (sketch.move sketch.calls.tail call.caller).machine globals := fun _ => rfl
      have resumed : ∀ (after : Sketch names) (globals : String → String),
          (after.machine globals).resume call (sketch.machine globals).scope =
            (after.move (call :: after.calls) sketch.scope).machine globals := fun _ _ => rfl
      simp only [innermost]
      exact .bracket (uniform _) suspended resumed

theorem uniform_leafText (below : deeper.Uniform names) (uniform : Uniform names block)
    (span : Span) {content : Leaf} (keeps : (Node.leaf span content).KeepsStructure) :
    Uniform names (leafText limit deeper block span content) := by
  cases content with
  | mixinBlock => exact uniform_mixinBlock uniform span
  | yieldSlot => exact .pure
  | text value html => exact .write value
  | code expression buffered escaped inLine =>
      rcases (keeps : escaped = true) with rfl
      simp only [leafText]
      split
      · exact uniform_showVariable expression span
      · exact .pure
  | comment value buffered =>
      simp only [leafText]
      split
      · exact .write _
      · exact .pure
  | doctype value => exact .pure
  | mixin head =>
      simp only [leafText]
      split
      · exact uniform_callMixin below .pure head span
      · exact uniform_declareMixin head span (by simp [Node.walkAll])

mutual

theorem uniform_visit (below : deeper.Uniform names) (uniform : Uniform names block) (node : Node)
    (keeps : ∀ other ∈ node.walk, other.KeepsStructure) :
    Uniform names (visit limit deeper block node) := by
  match node with
  | .leaf span content => exact uniform_leafText below uniform span (keeps _ (by simp [Node.walk]))
  | .file span use reference loaded children => exact .fail span _
  | .branch span label children =>
      simp only [Node.walk, List.forall_mem_cons] at keeps
      have content := uniform_visitAll below uniform children keeps.2
      cases label with
      | block => simpa only [visit] using content
      | tag head body =>
          simp only [visit]
          exact uniform_element content
      | variableTag head body => exact keeps.1.elim
      | mixin head body =>
          simp only [visit]
          split
          · exact uniform_callMixin below content head span
          · exact uniform_declareMixin head span keeps.2
      | blockComment value buffered body =>
          simp only [visit]
          split
          · exact (Uniform.write _).seq (content.seq (.write _))
          · exact .pure
      | namedBlock name mode => exact .fail span _
      | filter name attributes body => exact .fail span _

theorem uniform_visitAll (below : deeper.Uniform names) (uniform : Uniform names block)
    (nodes : List Node) (keeps : ∀ node ∈ Node.walkAll nodes, node.KeepsStructure) :
    Uniform names (visitAll limit deeper block nodes) := by
  match nodes with
  | [] => exact .pure
  | node :: rest =>
      simp only [Node.walkAll, List.forall_mem_append] at keeps
      simp only [visitAll]
      exact (uniform_visit below uniform node keeps.1).seq
        (uniform_visitAll below uniform rest keeps.2)

end

end

theorem uniform_levels (limit remaining : Nat) :
    Deeper.Uniform names (levels limit remaining) := by
  induction remaining with
  | zero =>
      intro render found
      cases found
  | succ remaining ih =>
      intro render found block uniform body keeps
      rcases Option.some.inj found with rfl
      exact uniform_visitAll ih uniform body keeps

/-! ### Pages -/

/-- Global variables with the given names. -/
def bindAll (names : List String) (globals : String → String) : List (String × String) :=
  names.map fun name => (name, globals name)

/-- The sketch before anything is rendered. -/
def Sketch.start (names : List String) (events : Array Event) : Sketch names where
  output := [.fixed doctype]
  mixins := []
  frames := #[⟨names.attach.map fun name => (name.1, .global name.1 name.2), none⟩]
  calls := []
  scope := 0
  events := events
  keeps := by simp

theorem machine_start (names : List String) (events : Array Event) (globals : String → String) :
    (Sketch.start names events).machine globals =
      Machine.start (bindAll names globals) doctype events := by
  have bindings : names.attach.map (fun name => (name.1, globals name.1)) =
      bindAll names globals :=
    List.attach_map_val (f := fun name => (name, globals name))
  simp [Sketch.start, Sketch.machine, Machine.start, pageOf, Piece.shown, OpenBindings.close,
    Function.comp_def, Piece.value, bindings]

/-- The entities that stand for special characters. -/
def entities : List (List Char) :=
  ["&amp;".toList, "&lt;".toList, "&gt;".toList, "&quot;".toList]

/-- A text without special characters, where an ampersand only begins an entity. -/
structure OnlyEntities (text : List Char) : Prop where
  noSpecial : ∀ special ∈ ['<', '>', '\x22'], special ∉ text
  ampersand : ∀ before after, text = before ++ '&' :: after →
    ∃ entity ∈ entities, entity <+: '&' :: after

namespace OnlyEntities

theorem nil : OnlyEntities [] := by
  constructor <;> simp

theorem cons {first : Char} {rest : List Char} (noSpecial : first ∉ ['<', '>', '\x22'])
    (starts : first = '&' → ∃ entity ∈ entities, entity <+: first :: rest)
    (only : OnlyEntities rest) : OnlyEntities (first :: rest) := by
  constructor
  · intro special known member
    rcases List.mem_cons.mp member with rfl | member
    · exact noSpecial known
    · exact only.noSpecial special known member
  · intro before after split
    cases before with
    | nil =>
        rcases List.cons.inj split with ⟨rfl, rfl⟩
        exact starts rfl
    | cons other before => exact only.ampersand before after (List.cons.inj split).2

theorem append {front rest : List Char} (plain : ∀ character ∈ front,
    character ∉ ['<', '>', '\x22', '&']) (only : OnlyEntities rest) :
    OnlyEntities (front ++ rest) := by
  induction front with
  | nil => exact only
  | cons first front ih =>
      rcases List.forall_mem_cons.mp plain with ⟨firstPlain, frontPlain⟩
      simp only [List.mem_cons, List.not_mem_nil, or_false, not_or] at firstPlain
      apply (ih frontPlain).cons
      · simp [firstPlain]
      · intro same
        exact absurd same firstPlain.2.2.2

theorem entity_append {name rest : List Char} (known : '&' :: name ∈ entities)
    (only : OnlyEntities rest) : OnlyEntities ('&' :: name ++ rest) := by
  have plain : ∀ entity ∈ entities, ∀ character ∈ entity.tail,
      character ∉ ['<', '>', '\x22', '&'] := by
    simp [entities]
  apply (only.append (plain _ known)).cons
  · decide
  · intro _
    exact ⟨_, known, List.prefix_append _ _⟩

end OnlyEntities

theorem onlyEntities_escape (text : String) : OnlyEntities (escape text).toList := by
  rw [escape, String.toList_ofList]
  induction text.toList with
  | nil => exact .nil
  | cons first rest ih =>
      rw [List.flatMap_cons]
      unfold escapeCharacter
      split
      · exact ih.entity_append (by decide)
      · split
        · exact ih.entity_append (by decide)
        · split
          · exact ih.entity_append (by decide)
          · split
            · exact ih.entity_append (by decide)
            · apply ih.append
              simp_all

/-- Either a document fails with one fault for all values of the global variables, or its page has
gaps for them and is the same otherwise; and what stands in a gap has no special characters. -/
theorem outcome_render_uniform {document : Document} (limit : Nat) (names : List String)
    (keeps : ∀ node ∈ document.walk, node.KeepsStructure) (events : Array Event) :
    ((∃ fault, ∀ globals,
        outcome (render document ⟨bindAll names globals, limit⟩ events) = .error fault) ∨
      ∃ pieces : List (Piece names), ∀ globals,
        outcome (render document ⟨bindAll names globals, limit⟩ events) =
          .ok (pageOf pieces globals)) ∧
      ∀ value, OnlyEntities (escape value).toList := by
  have visits : Uniform names (visitAll limit (levels limit limit) (pure ()) document.nodes) :=
    uniform_visitAll (uniform_levels limit limit) .pure document.nodes keeps
  refine ⟨?_, onlyEntities_escape⟩
  rcases visits (.start names events) with ⟨fault, failed⟩ | ⟨value, last, done⟩
  · left
    refine ⟨fault, ?_⟩
    intro globals
    rcases failed globals with ⟨after, failed⟩
    rw [machine_start] at failed
    simp only [render, failed, outcome]
  · right
    refine ⟨last.output, ?_⟩
    intro globals
    have rendered := done globals
    rw [machine_start] at rendered
    simp only [render, rendered, outcome]
    rfl

/-- A mixin that shows its parameter and then the block of its call, and a call of it. -/
def greeting : Document where
  nodes := [
    .branch {} (.mixin ⟨"greet", some "word", false, []⟩ {})
      [.leaf {} (.code "word" true true true), .leaf {} .mixinBlock],
    .branch {} (.mixin ⟨"greet", some "name", true, []⟩ {})
      [.branch {} (.tag ⟨"b", false, true, false, []⟩ {})
        [.leaf {} (.code "name" true true true)]]]

theorem outcome_render_greeting :
    (∀ node ∈ greeting.walk, node.KeepsStructure) ∧
      ∃ pieces : List (Piece ["name"]), ∀ globals,
        outcome (render greeting ⟨bindAll ["name"] globals, 1⟩ #[]) =
          .ok (pageOf pieces globals) := by
  have keeps : ∀ node ∈ greeting.walk, node.KeepsStructure := by
    simp [greeting, Document.walk, Node.walkAll, Node.walk, Node.KeepsStructure]
  refine ⟨keeps, ?_⟩
  rcases (outcome_render_uniform 1 ["name"] keeps #[]).1 with ⟨fault, failed⟩ | uniform
  · have rendered : outcome (render greeting ⟨bindAll ["name"] fun _ => "<", 1⟩ #[]) =
        .ok "<!DOCTYPE html>&lt;<b>&lt;</b>" := by
      rfl
    exact absurd ((failed _).symm.trans rendered) (by simp)
  · exact uniform

end Html

end Offside
