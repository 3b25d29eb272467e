import Offside.Proofs.Arguments.Passing
import Offside.Proofs.Arguments.Stages
import Offside.Proofs.Levels.Run
import Offside.Proofs.Progress.Run

/-!
# The way of the arguments

A source declares a mixin and calls it further on, each in a line outside of all levels. In the run
over the source one step reads the declaration and a later one the call; in the finished document
both are at the top level; and when rendering comes from the one to the other, the body of the
mixin is rendered with its parameters bound to the texts that were quoted.

What binds the two ends together are places: a token has the span of the scanner that read it, and
the node that is made of it keeps this span up to the finished document.
-/

namespace Offside

open Computing Relation Text Html

namespace Scanner

variable {scanner next other : Scanner} {text rest : List Char} {kind : TokenKind}

/-! ### Lines in a source -/

/-- The scanner stands at the beginning of a line, outside of all levels, and this text is what is
left of the source. -/
structure AtLine (scanner : Scanner) (text : List Char) : Prop where
  running : scanner.ended = false
  outside : scanner.levels = []
  begins : ∀ token ∈ scanner.found.head?, token.kind = .newline ∨ token.kind = .outdent
  unread : scanner.unread = normalizeNewlines text

instance : Decidable (scanner.AtLine text) :=
  decidable_of_iff (scanner.ended = false ∧ scanner.levels = [] ∧
      (∀ token ∈ scanner.found.head?, token.kind = .newline ∨ token.kind = .outdent) ∧
      scanner.unread = normalizeNewlines text)
    ⟨fun ⟨running, outside, begins, unread⟩ => ⟨running, outside, begins, unread⟩,
      fun atLine => ⟨atLine.running, atLine.outside, atLine.begins, atLine.unread⟩⟩

theorem AtLine.endLines (atLine : scanner.AtLine text) (among : scanner.AmongLines) :
    EndLines 0 scanner.found.reverse := by
  have nested : Nested .lines scanner.kinds := by
    have nested := among.nested
    rw [atLine.outside] at nested
    cases nested with
    | closed nested => exact nested
  refine ⟨.of_nested nested, ?_, fun token member isEnd => nested.eos_not_mem ?_⟩
  · rw [List.getLast?_reverse]
    exact atLine.begins
  · exact List.mem_map.mpr ⟨token, member, isEnd⟩

theorem Advances.unique (first : scanner.Advances next) (second : scanner.Advances other) :
    next = other := by
  have same := first.first.symm.trans second.first
  cases same
  rfl

/-- From one state on, a run to another state begins with a step. -/
theorem reaches_of_step (reaches : ReflTransGen Advances scanner other)
    (differ : scanner ≠ other) (step : scanner.Advances next) :
    ReflTransGen Advances next other := by
  rcases reaches.cases_head with same | ⟨middle, first, others⟩
  · exact absurd same differ
  · rwa [step.unique first]

theorem reaches_of_steps? {count : Nat} (found : steps? count scanner = some other) :
    ReflTransGen Advances scanner other := by
  induction count generalizing scanner with
  | zero =>
      cases found
      exact .refl
  | succ count ih =>
      unfold steps? at found
      split at found
      · cases found
      · next running =>
          split at found
          · next first =>
              have enough (nested : Scanner)
                  (shorter : nested.unread.length < scanner.unread.length) :
                  run [] (scanner.unread.length + 1) nested = runAll [] nested := by
                rw [runAll_eq_run]
                exact (proceeds_run (Nat.le_refl _) (by omega)).same
              have step : scanner.Advances _ :=
                ⟨Bool.eq_false_iff.mpr running, (firstMatch_congr enough).symm.trans first⟩
              exact .head step (ih found)
          · cases found

end Scanner

open Scanner

/-! ### From a source to a document -/

/-- A source declares a mixin and calls it further on, in lines outside of all levels. The two
states of the run over the source are those in which the scanner stands at these lines. -/
structure CallsDeclared (file : Option String) (source : String) (events : Array Event)
    (name : MixinName) (parameters : List VariableName) (arguments : List LiteralArgument)
    (declaring calling : Scanner) : Prop where
  comes : ReflTransGen Advances
    { TokenOptions.scanner { file } source with events := events } declaring
  /-- Behind the brackets of the declaration its line ends. -/
  declares : ∃ rest, EndsLine (normalizeNewlines rest) ∧
    declaring.AtLine (printDeclaration name parameters ++ rest)
  goesOn : ReflTransGen Advances declaring calling
  calls : ∃ rest, calling.AtLine (printCall name arguments ++ rest)

namespace CallsDeclared

variable {file : Option String} {source : String} {events : Array Event}
  {name : MixinName} {parameters : List VariableName} {arguments : List LiteralArgument}
  {declaring calling : Scanner}

theorem reaches_calling
    (given : CallsDeclared file source events name parameters arguments declaring calling) :
    ReflTransGen Advances { TokenOptions.scanner { file } source with events := events } calling :=
  given.comes.trans given.goesOn

/-- At the declaration one step reads its token. -/
theorem exists_readsToken_declaring
    (given : CallsDeclared file source events name parameters arguments declaring calling) :
    ∃ next, declaring.ReadsToken (printDeclaration name parameters)
      (declarationKind name parameters) next := by
  rcases given.declares with ⟨rest, ends, atLine⟩
  have unread := atLine.unread
  rw [normalizeNewlines_append (noReturn_printDeclaration name parameters)] at unread
  exact exists_readsToken_declaration atLine.running unread ends

/-- At the call one step reads its token, which holds the arguments. -/
theorem exists_readsToken_calling
    (given : CallsDeclared file source events name parameters arguments declaring calling) :
    ∃ next, calling.ReadsToken (printCall name arguments) (callKind name arguments) next := by
  rcases given.calls with ⟨rest, atLine⟩
  have unread := atLine.unread
  rw [normalizeNewlines_append (noReturn_printCall name arguments)] at unread
  exact exists_readsToken_call atLine.running unread

/-- The declaration and the call are tokens of the source, one behind the other, and both stand
behind whole lines. -/
theorem exists_tokens
    (given : CallsDeclared file source events name parameters arguments declaring calling) :
    ∃ front between declared called, declared.kind = declarationKind name parameters ∧
      declared.span = declaring.span ∧ called.kind = callKind name arguments ∧
      called.span = calling.span ∧ EndLines 0 front ∧ EndLines 0 (front ++ declared :: between) ∧
      ∀ tokens after, tokenize source { file } events = .ok tokens after →
        ∃ behind, tokens.toList = front ++ declared :: (between ++ called :: behind) := by
  rcases given.exists_readsToken_declaring with ⟨next, reads⟩
  rcases given.exists_readsToken_calling with ⟨last, readsCall⟩
  rcases reads.found with ⟨stop, found⟩
  rcases readsCall.found with ⟨stopCall, foundCall⟩
  have differ : declaring ≠ calling := by
    rintro rfl
    obtain rfl := reads.steps.advances.unique readsCall.steps.advances
    have same := (List.cons.inj (found.symm.trans foundCall)).1
    cases congrArg Token.kind same
  have onwards := reaches_of_step given.goesOn differ reads.steps.advances
  rcases found_suffix_of_reaches onwards with ⟨between, foundBetween⟩
  have parts : calling.found.reverse = declaring.found.reverse ++
      ⟨declarationKind name parameters, declaring.span, stop⟩ :: between.reverse := by
    simp [← foundBetween, found]
  rcases given.declares with ⟨_, _, atDeclaration⟩
  rcases given.calls with ⟨_, atCall⟩
  refine ⟨declaring.found.reverse, between.reverse,
    ⟨declarationKind name parameters, declaring.span, stop⟩,
    ⟨callKind name arguments, calling.span, stopCall⟩, rfl, rfl, rfl, rfl, ?_, ?_, ?_⟩
  · exact atDeclaration.endLines (amongLines_of_source given.comes atDeclaration.running)
  · rw [← parts]
    exact atCall.endLines (amongLines_of_source given.reaches_calling atCall.running)
  · intro tokens after done
    rcases exists_tokens_of_reaches (given.reaches_calling.tail readsCall.steps.advances) done with
      ⟨behind, tokens⟩
    exact ⟨behind, by simp [tokens, foundCall, parts]⟩

/-- The declaration and the call are nodes of the finished document, in their places. -/
theorem ensures_declareAndCall (options : PageOptions) (read : Reader)
    (given : CallsDeclared file source events name parameters arguments declaring calling) :
    Ensures (finishedDocument options read file source) events fun finished _ =>
      Node.DeclareAndCall (declaring.span, declarationHead name parameters)
        (calling.span, callHead name arguments []) finished.nodes := by
  rcases given.exists_tokens with
    ⟨front, between, declared, called, kind, place, kindCall, placeCall, first, second, parts⟩
  have inFile {scanner : Scanner} (reaches : ReflTransGen Advances
      { TokenOptions.scanner { file } source with events := events } scanner) :
      scanner.span.inFile file = scanner.span := by
    have same : scanner.file = file := (goesTo_of_reaches (hasRoom_farCorner _) reaches).file
    cases file <;> simp [Span.inFile, Scanner.span, Span.start, same]
  rw [← inFile given.comes, ← inFile given.reaches_calling, ← place, ← placeCall]
  exact ensures_finishedDocument_call parts first second kind kindCall

end CallsDeclared

/-- Among nodes with a declaration and a call behind it, each stands in its place. -/
theorem Node.DeclareAndCall.exists_eq_append {declared called : Span × MixinHead}
    {nodes : List Node} (among : DeclareAndCall declared called nodes) :
    ∃ front declaration between call behind attributes,
      nodes = front ++ declaration :: (between ++ call :: behind) ∧
      declaration.mixinHead? = some declared ∧
      call.mixinHead? = some (called.1, { called.2 with attributes := attributes }) := by
  rcases among with ⟨attributes, among⟩
  rcases List.cons_sublist_iff.mp among with ⟨heads, later, parts, isDeclared, isCalled⟩
  rcases List.filterMap_eq_append_iff.mp parts with ⟨first, second, rfl, rfl, rfl⟩
  rcases List.mem_filterMap.mp isDeclared with ⟨declaration, memFirst, declares⟩
  rcases List.mem_filterMap.mp (List.singleton_sublist.mp isCalled) with ⟨call, memSecond, calls⟩
  rcases List.append_of_mem memFirst with ⟨front, between, rfl⟩
  rcases List.append_of_mem memSecond with ⟨more, behind, rfl⟩
  exact ⟨front, declaration, between ++ more, call, behind, attributes, by simp, declares, calls⟩

/-! ### From a document to a body -/

namespace Html

open Rendering

/-- Rendering a page whose nodes begin with some comes to the end of these, in a state. -/
def ComesTo (options : RenderOptions) (events : Array Event) (nodes : List Node)
    (machine : Machine) : Prop :=
  visitAll options.maxMixinDepth (levels options.maxMixinDepth options.maxMixinDepth) (pure ())
    nodes (Machine.start options.globals doctype events) = .ok () machine

/-- When a page is rendered, this comes to each place in it. -/
theorem exists_comesTo_of_render {document : Document} {options : RenderOptions}
    {events after : Array Event} {page : String} {front rest : List Node}
    (parts : document.nodes = front ++ rest)
    (done : render document options events = .ok page after) :
    ∃ machine, ComesTo options events front machine := by
  unfold render at done
  dsimp only at done
  rw [parts, visitAll_append] at done
  cases visited : visitAll options.maxMixinDepth
      (levels options.maxMixinDepth options.maxMixinDepth) (pure ()) front
      (Machine.start options.globals doctype events) with
  | ok _ machine => exact ⟨machine, visited⟩
  | error fault machine =>
      rw [bind_of_error visited] at done
      cases done

/-- A call passes its arguments: the body of the mixin is rendered in a state in which the
parameters are bound, and wherever this comes to, each parameter has the text of its argument. -/
structure PassesArguments (limit : Nat) (name : MixinName) (parameters : List VariableName)
    (arguments : List LiteralArgument) (body block : List Node) (call : Node)
    (machine : Machine) : Prop where
  /-- There are as many arguments as parameters, and the depth allows the call. -/
  enters : visit limit (levels limit limit) (pure ()) call machine =
    bracket (fun machine => (machine.frames.size, machine.scope))
      (fun machine => machine.entered name.value (bindingsOf parameters arguments))
      (fun (frames, scope) machine => machine.leave frames scope)
      (visitAll limit (levels limit (limit - 1))
        (visitAll limit (levels limit limit) (pure ()) block) body) machine
  arrive : ∀ goal reached,
    Arrives limit (limit - 1) (visitAll limit (levels limit limit) (pure ()) block) body
        (machine.entered name.value (bindingsOf parameters arguments)) goal reached →
      ∀ pair ∈ parameters.zip arguments, reached.lookup? pair.1.value = some pair.2.value

theorem passesArguments_of_lookup {limit : Nat} {name : MixinName} {parameters : List VariableName}
    {arguments : List LiteralArgument} {body block : List Node} {call : Node} {machine : Machine}
    {attributes : List Attribute} (distinct : (parameters.map VariableName.value).Nodup)
    (paired : arguments.length = parameters.length) (allowed : 1 ≤ limit)
    (isCall : call.mixin? = some (callHead name arguments attributes, block))
    (isDeclared : machine.mixins.lookup name.value = some (definitionOf parameters body)) :
    PassesArguments limit name parameters arguments body block call machine := by
  rcases Nat.exists_eq_add_of_le' allowed with ⟨depth, rfl⟩
  refine ⟨visit_call paired depth isCall isDeclared, fun goal reached arrives pair mem => ?_⟩
  have restores :
      Restores (visitAll (depth + 1) (levels (depth + 1) (depth + 1)) (pure ()) block) :=
    restores_visitAll (restores_levels _ _) restores_pure block
  exact arrives.lookup?_eq restores (lookup_bindingsOf distinct paired pair mem)

end Html

/-! ### From a source to a body -/

/-- The arguments of a call arrive unchanged. Where a source declares a mixin and calls it further
on with literals, the call is read as one with arguments; the declaration and the call are nodes of
the finished document; and when rendering this document comes to the call, the arguments are passed,
unless the mixin was declared again in the meantime. -/
theorem argumentsArrive (options : PageOptions) (read : Reader) {file : Option String}
    {source : String} {events : Array Event} {name : MixinName} {parameters : List VariableName}
    {arguments : List LiteralArgument} {declaring calling : Scanner}
    (given : CallsDeclared file source events name parameters arguments declaring calling)
    (distinct : (parameters.map VariableName.value).Nodup)
    (paired : arguments.length = parameters.length) (allowed : 1 ≤ options.maxMixinDepth) :
    (∃ next, calling.ReadsToken (printCall name arguments) (callKind name arguments) next) ∧
    ∀ finished after, finishedDocument options read file source events = .ok finished after →
      ∃ front declaration between call behind body block attributes,
        finished.nodes = front ++ declaration :: (between ++ call :: behind) ∧
        declaration.span = declaring.span ∧
        declaration.mixin? = some (declarationHead name parameters, body) ∧
        call.span = calling.span ∧
        call.mixin? = some (callHead name arguments attributes, block) ∧
        (∀ page last, render finished options.rendering after = .ok page last →
          ∃ machine, ComesTo options.rendering after (front ++ declaration :: between) machine) ∧
        ∀ machine, ComesTo options.rendering after (front ++ declaration :: between) machine →
          (machine.mixins.lookup name.value = some (definitionOf parameters body) →
            PassesArguments options.maxMixinDepth name parameters arguments body block call
              machine) ∧
          ((between ≠ [] →
              Node.Every (Node.UndeclaredInside name.value) (front ++ [declaration])) →
            Node.Every (Node.Undeclared name.value) between →
              machine.mixins.lookup name.value = some (definitionOf parameters body)) := by
  refine ⟨given.exists_readsToken_calling, fun finished after done => ?_⟩
  rcases (given.ensures_declareAndCall options read finished after done).exists_eq_append with
    ⟨front, declaration, between, call, behind, attributes, parts, declares, calls⟩
  rcases Node.exists_mixin?_of_mixinHead? declares with ⟨place, body, isDeclaration⟩
  rcases Node.exists_mixin?_of_mixinHead? calls with ⟨placeCall, block, isCall⟩
  refine ⟨front, declaration, between, call, behind, body, block, attributes, parts, place,
    isDeclaration, placeCall, isCall, fun page last rendered => ?_,
    fun machine comes => ⟨fun isDeclared => ?_, fun inside undeclared => ?_⟩⟩
  · have parts : finished.nodes = (front ++ declaration :: between) ++ call :: behind := by
      simp [parts]
    exact exists_comesTo_of_render parts rendered
  · exact passesArguments_of_lookup distinct paired allowed isCall isDeclared
  · exact ensures_lookup_declared isDeclaration inside undeclared rfl () machine comes

/-- A page that calls a mixin with two texts, full of signs that mean something elsewhere. In the
body of this mixin there is a call with a block. -/
def quotingPage : String :=
  "mixin inner()\n  block\nmixin note(a, b)\n  +inner()\n    p #\x7ba\x7d\n" ++
    "+note(\"a, \\\"b\\\") = [x] // y\", 'it\\'s \\\\ \x7b\n z')"

namespace quotingPage

def innerName : MixinName := ⟨"inner", by decide, List.all_eq_true.mp (by decide)⟩

def noteName : MixinName := ⟨"note", by decide, List.all_eq_true.mp (by decide)⟩

def parameters : List VariableName := [⟨"a", by decide +kernel⟩, ⟨"b", by decide +kernel⟩]

def arguments : List LiteralArgument :=
  [⟨"a, \x22b\x22) = [x] // y", '\x22', rfl, by decide⟩,
    ⟨"it\x27s \\ \x7b\n z", '\x27', rfl, by decide⟩]

/-- The page needs no other file. -/
def noOtherFiles : Reader := fun _ => .error "no such file"

/-- Whether these are the two mixins and the call; in the body of the second mixin stands a call
with a block. -/
def isPage : List Node → Bool
  | [.branch _ (.mixin inner _) [.leaf _ .mixinBlock],
      .branch _ (.mixin note _) [.branch _ (.mixin within _) _], .leaf _ (.mixin call)] =>
      decide (inner = declarationHead innerName [] ∧ note = declarationHead noteName parameters ∧
        within = callHead innerName [] [] ∧ call = callHead noteName arguments [])
  | _ => false

open Rendering

theorem exists_visitAll_eq {inner note : Node} {shown body : List Node}
    (isInner : inner.mixin? = some (declarationHead innerName [], shown))
    (isNote : note.mixin? = some (declarationHead noteName parameters, body)) (start : Machine) :
    ∃ machine, visitAll 256 (levels 256 256) (pure ()) [inner, note] start = .ok () machine ∧
      machine.mixins.lookup innerName.value = some (definitionOf [] shown) := by
  refine ⟨_, (bind_of_ok (visit_declaration isInner)).trans
    (bind_of_ok (visit_declaration isNote)), rfl⟩

/-- In the body rendering comes to the block of the call. -/
theorem exists_arrives {machine : Machine} {place : Span}
    (isDeclared : machine.mixins.lookup innerName.value =
      some (definitionOf [] [.leaf place .mixinBlock]))
    (name : String) (bindings : List (String × String)) (span body : Span) (block : List Node) :
    ∃ reached, Arrives 256 255 (visitAll 256 (levels 256 256) (pure ()) [])
      [.branch span (.mixin (callHead innerName [] []) body) block] (machine.entered name bindings)
      block reached := by
  have callee := calleeIn_callHead innerName [] [] (machine.entered name bindings).lookup? span []
    [.leaf place .mixinBlock] rfl
  rw [← isDeclared] at callee
  exact ⟨_, .inBlock rfl rfl callee (.here _ _) rfl (.here _ _)⟩

theorem exists_callsDeclared : ∃ declaring calling,
    CallsDeclared none quotingPage #[] noteName parameters arguments declaring calling := by
  have states : ((steps? 4 (TokenOptions.scanner {} quotingPage)).any fun declaring =>
      declaring.AtLine (printDeclaration noteName parameters ++
          '\n' :: ("  +inner()\n    p #\x7ba\x7d\n".toList ++ printCall noteName arguments)) &&
        (steps? 7 declaring).any fun calling =>
          calling.AtLine (printCall noteName arguments ++ [])) = true := by
    decide +kernel
  simp only [Option.any_eq_true, Bool.and_eq_true, decide_eq_true_eq] at states
  rcases states with ⟨declaring, comes, atDeclaration, calling, goesOn, atCall⟩
  refine ⟨declaring, calling, reaches_of_steps? comes, ⟨_, ?_, atDeclaration⟩,
    reaches_of_steps? goesOn, ⟨[], atCall⟩⟩
  rintro _ ⟨⟩
  rfl

/-- The nodes of the page: the two mixins and the call. -/
theorem exists_finishedDocument_eq : ∃ finished after inner note call,
    finishedDocument {} noOtherFiles none quotingPage #[] = .ok finished after ∧
      finished.nodes = [inner, note, call] ∧
      (∃ place, inner.mixin? = some (declarationHead innerName [], [.leaf place .mixinBlock])) ∧
      (∃ span place block, note.mixin? = some (declarationHead noteName parameters,
        [.branch span (.mixin (callHead innerName [] []) place) block])) ∧
      call.mixin? = some (callHead noteName arguments [], []) := by
  have page : (match finishedDocument {} noOtherFiles none quotingPage #[] with
      | .ok finished _ => isPage finished.nodes
      | .error .. => false) = true := by
    decide +kernel
  split at page
  · next finished after done =>
      unfold isPage at page
      split at page
      · next nodes =>
          rcases of_decide_eq_true page with ⟨rfl, rfl, rfl, rfl⟩
          exact ⟨finished, after, _, _, _, done, nodes, ⟨_, rfl⟩, ⟨_, _, _, rfl⟩, rfl⟩
      · cases page
  · cases page

end quotingPage

open quotingPage Rendering in
/-- Both texts are there in the block of the call in the body. -/
theorem argumentsArrive_quotingPage :
    ∃ declaring calling,
      CallsDeclared none quotingPage #[] noteName parameters arguments declaring calling ∧
      ∃ finished after, finishedDocument {} noOtherFiles none quotingPage #[] = .ok finished after ∧
      ∃ (machine reached : Machine) (span place : Span) (block : List Node),
        Arrives 256 255 (visitAll 256 (levels 256 256) (pure ()) [])
          [.branch span (.mixin (callHead innerName [] []) place) block]
          (machine.entered noteName.value (bindingsOf parameters arguments)) block reached ∧
        reached.lookup? "a" = some "a, \x22b\x22) = [x] // y" ∧
        reached.lookup? "b" = some "it\x27s \\ \x7b\n z" := by
  rcases exists_callsDeclared with ⟨declaring, calling, given⟩
  rcases exists_finishedDocument_eq with ⟨finished, after, inner, note, call, done, nodes,
    ⟨_, isInner⟩, ⟨span, place, block, isNote⟩, isCall⟩
  rcases argumentsArrive {} noOtherFiles given (by decide) rfl (by decide) with ⟨-, arrive⟩
  rcases arrive finished after done with ⟨front, declaration, between, called, behind, _, _, _,
    parts, -, isDeclaration, -, isCalled, -, comes⟩
  have names : innerName.value ≠ noteName.value := by decide
  rw [nodes] at parts
  rcases front with _ | ⟨first, _ | ⟨second, front⟩⟩
  · simp only [List.nil_append, List.cons.injEq] at parts
    simp [← parts.1, isInner, declarationHead, names] at isDeclaration
  · simp only [List.cons_append, List.nil_append, List.cons.injEq] at parts
    rcases parts with ⟨rfl, rfl, parts⟩
    rcases between with _ | ⟨_, between⟩
    · rcases List.cons.inj parts with ⟨rfl, -⟩
      cases isNote.symm.trans isDeclaration
      cases isCall.symm.trans isCalled
      rcases exists_visitAll_eq isInner isNote (Machine.start [] doctype after) with
        ⟨machine, visited, known⟩
      rcases comes machine visited with ⟨passes, isDeclared⟩
      have passes := passes (isDeclared (by simp) (by simp [Node.Every]))
      rcases exists_arrives known noteName.value (bindingsOf parameters arguments) span place block
        with ⟨reached, arrives⟩
      have arrive := passes.arrive block reached arrives
      exact ⟨declaring, calling, given, finished, after, done, machine, reached, span, place, block,
        arrives, arrive _ (.head _), arrive _ (.tail _ (.head _))⟩
    · simp at parts
  · have lengths := congrArg List.length parts
    simp at lengths
    omega

end Offside
