import Offside.Html.Render
import Offside.Proofs.Computation

/-!
# Rendering by closures

A second description of rendering, without frames and without a stack of calls. The variables that
can be seen are an environment, which never changes: the body of a mixin is evaluated in another
one, that of the call with the parameters put over it. A call also makes a closure: its block, the
environment in which the call stands, and the closure of its caller. Where a body asks for the
block of its call, the block of the closure is evaluated in the environment of the closure, and
with the closure of the caller.

Since a mixin may call itself, evaluation takes an amount of fuel: how deep bodies and blocks may be
entered one inside the other. More fuel never changes the result of an evaluation that came to an
end.
-/

namespace Offside.Html

open Computing

/-- The values of the variables that can be seen. -/
abbrev Environment := String → Option String

namespace Environment

/-- The environment of some bindings; of two with one name the first counts. -/
def ofBindings (bindings : List (String × String)) : Environment :=
  fun name => bindings.lookup name

/-- The environment with other bindings put over it. -/
def override (environment : Environment) (bindings : List (String × String)) : Environment :=
  fun name => bindings.lookup name <|> environment name

end Environment

/-- What belongs to the innermost call: its block, the environment in which it stands, and what
belongs to the call around it. -/
inductive Closure where
  | outermost
  | call (block : Option (List Node)) (environment : Environment) (caller : Closure)

namespace Closure

def depth : Closure → Nat
  | outermost => 0
  | call _ _ caller => caller.depth + 1

end Closure

section

variable (environment : Environment) (span : Span)

def valueIn (name : String) : Except (Diagnostic RenderFault) String :=
  match environment name with
  | some value => .ok value
  | none => .error ⟨.undefinedVariable name, span, none⟩

def argumentIn (argument : List Char) : Except (Diagnostic RenderFault) String :=
  match Text.literal? argument with
  | some value => .ok (String.ofList value)
  | none =>
      if isNumber argument then .ok (String.ofList argument)
      else if isName argument then valueIn environment span (String.ofList argument)
      else .error ⟨.invalidArgument (String.ofList argument), span, none⟩

/-- The bindings of parameters to the values of arguments, on top of others. -/
def bindingsIn : List (String × List Char) → List (String × String) →
    Except (Diagnostic RenderFault) (List (String × String))
  | [], bindings => .ok bindings
  | (parameter, argument) :: rest, bindings =>
      match argumentIn environment span argument with
      | .ok value => bindingsIn rest ((parameter, value) :: bindings)
      | .error fault => .error fault

/-- The body that a call renders, and the bindings of its parameters. -/
def calleeIn (definition? : Option MixinDefinition) (head : MixinHead) :
    Except (Diagnostic RenderFault) (List Node × List (String × String)) :=
  match definition? with
  | none => .error ⟨.undefinedMixin head.name, span, none⟩
  | some definition =>
      let arguments := listItems (head.arguments.getD "").toList
      if arguments.length ≠ definition.parameters.length then
        .error ⟨.argumentCountMismatch head.name definition.parameters.length arguments.length,
          span, none⟩
      else
        (bindingsIn environment span (definition.parameters.zip arguments) []).map
          fun bindings => (definition.body, bindings)

end

/-- The parameters and the body that a declaration stands for. -/
def declared (head : MixinHead) (span : Span) (body : List Node) :
    Except (Diagnostic RenderFault) MixinDefinition :=
  let parameters := listItems (head.arguments.getD "").toList
  match parameters.find? (!isName ·) with
  | some parameter => .error ⟨.invalidParameter (String.ofList parameter), span, none⟩
  | none => .ok ⟨parameters.map String.ofList, body⟩

/-- What evaluation adds to: the page and the table of mixins. -/
structure Page where
  output : String
  mixins : String → Option MixinDefinition

namespace Page

def write (page : Page) (text : String) : Page :=
  { page with output := page.output ++ text }

/-- Declare a mixin; an earlier one of the same name is forgotten. -/
def declare (page : Page) (name : String) (definition : MixinDefinition) : Page :=
  { page with mixins := fun other => if other = name then some definition else page.mixins other }

end Page

/-- Why an evaluation has no page. -/
inductive EvaluationStop where
  | fault (fault : Diagnostic RenderFault)
  | exhausted

/-- A computation on the page and the table of mixins. -/
abbrev Evaluation := EStateM EvaluationStop Page

namespace Evaluation

def require {α : Type} : Except (Diagnostic RenderFault) α → Evaluation α
  | .ok value => return value
  | .error fault => throw (.fault fault)

def fail (span : Span) (cause : RenderFault) : Evaluation Unit :=
  throw (.fault ⟨cause, span, none⟩)

def write (text : String) : Evaluation Unit :=
  modify (·.write text)

end Evaluation

/-- How nodes are evaluated in an environment and with a closure. -/
abbrev Evaluator := Environment → Closure → List Node → Evaluation Unit

section

open Evaluation

variable (limit : Nat) (enter : Evaluator) (environment : Environment) (closure : Closure)

def evaluateElement (name : String) (span : Span) (selfClosing : Bool)
    (attributes : List Attribute) (children : List Node) (content : Evaluation Unit) :
    Evaluation Unit := do
  write (startTag name attributes)
  if selfClosing || voidElements.contains name then
    if children.any (!·.isBlankText) then
      fail span (.voidElementWithContent name)
  else
    content
    write (endTag name)

/-- A call: its arguments are evaluated here, and the body with these over the environment. -/
def evaluateCall (head : MixinHead) (span : Span) (block : Option (List Node)) :
    Evaluation Unit := do
  let (body, bindings) ← require (calleeIn environment span ((← get).mixins head.name) head)
  if limit ≤ closure.depth then
    fail span (.recursionLimit limit)
  else
    enter (environment.override bindings) (.call block environment closure) body

/-- The block of the innermost call, if it has one. -/
def evaluateBlock (span : Span) : Evaluation Unit :=
  match closure with
  | .outermost => fail span .callStackUnderflow
  | .call none _ _ => return
  | .call (some block) outside caller => enter outside caller block

def evaluateDeclaration (head : MixinHead) (span : Span) (body : List Node) : Evaluation Unit := do
  let definition ← require (declared head span body)
  modify (·.declare head.name definition)

def evaluateLeaf (span : Span) : Leaf → Evaluation Unit
  | .mixinBlock => evaluateBlock enter closure span
  | .yieldSlot => return
  | .doctype _ => return
  | .text value _ => write value
  | .code expression buffered escaped _ => do
      if buffered then
        let value ← require (valueIn environment span expression)
        write (written escaped value)
  | .comment value buffered => do
      if buffered then
        write ("<!--" ++ value ++ "-->")
  | .mixin head =>
      if head.isCall then evaluateCall limit enter environment closure head span none
      else evaluateDeclaration head span []

mutual

def evaluateNode : Node → Evaluation Unit
  | .leaf span content => evaluateLeaf limit enter environment closure span content
  | .branch span label children =>
      match label with
      | .block => evaluateNodes children
      | .tag head _ =>
          evaluateElement head.name span head.selfClosing head.attributes children
            (evaluateNodes children)
      | .variableTag head _ => do
          let name ← require (valueIn environment span head.expression)
          evaluateElement name span head.selfClosing head.attributes children
            (evaluateNodes children)
      | .mixin head _ =>
          if head.isCall then
            evaluateCall limit enter environment closure head span (some children)
          else
            evaluateDeclaration head span children
      | .blockComment value buffered _ => do
          if buffered then
            write ("<!--" ++ value)
            evaluateNodes children
            write "-->"
      | .namedBlock .. | .filter .. => fail span (.unsupportedNode label.kind)
  | .file span use _ _ _ => fail span (.unsupportedNode use.kind)

def evaluateNodes : List Node → Evaluation Unit
  | [] => return
  | node :: rest => do
      evaluateNode node
      evaluateNodes rest

end

end

/-- Evaluate nodes with an amount of fuel. -/
def evaluate (limit : Nat) : (fuel : Nat) → Evaluator
  | 0 => fun _ _ _ => throw .exhausted
  | fuel + 1 => evaluateNodes limit (evaluate limit fuel)

/-- The page of a document or the fault in it, if the fuel is enough to tell. -/
def evaluatePage? (fuel : Nat) (document : Document) (options : RenderOptions) :
    Option (Except (Diagnostic RenderFault) String) :=
  match evaluate options.maxMixinDepth fuel (.ofBindings options.globals) .outermost
    document.nodes ⟨doctype, fun _ => none⟩ with
  | .ok _ page => some (.ok page.output)
  | .error (.fault fault) _ => some (.error fault)
  | .error .exhausted _ => none

/-! ### More fuel -/

namespace Evaluation

variable {α β : Type}

/-- The second computation does what the first one does, unless that one runs out of fuel. -/
def Extends (less more : Evaluation α) : Prop :=
  ∀ page, (∃ left, less page = .error .exhausted left) ∨ more page = less page

theorem Extends.refl (evaluation : Evaluation α) : evaluation.Extends evaluation :=
  fun _ => .inr rfl

theorem Extends.bind {less more : Evaluation α} {lessNext moreNext : α → Evaluation β}
    (first : less.Extends more) (second : ∀ value, (lessNext value).Extends (moreNext value)) :
    (less >>= lessNext).Extends (more >>= moreNext) := by
  intro page
  rcases first page with ⟨left, exhausted⟩ | same
  · exact .inl ⟨left, bind_of_error exhausted⟩
  · cases acted : less page with
    | error stop left =>
        right
        rw [bind_of_error acted, bind_of_error (same.trans acted)]
    | ok value middle =>
        rw [bind_of_ok acted, bind_of_ok (same.trans acted)]
        exact second value middle

end Evaluation

section

open Evaluation

variable {limit : Nat} {less more : Evaluator} {environment : Environment} {closure : Closure}

theorem evaluateElement_extends {name : String} {span : Span} {selfClosing : Bool}
    {attributes : List Attribute} {children : List Node} {less more : Evaluation Unit}
    (content : less.Extends more) :
    (evaluateElement name span selfClosing attributes children less).Extends
      (evaluateElement name span selfClosing attributes children more) := by
  apply (Extends.refl _).bind
  intro _
  split
  · exact .refl _
  · exact content.bind fun _ => .refl _

/-- Whatever the first evaluator does with its fuel, the second one does, too. -/
def Evaluator.Extends (less more : Evaluator) : Prop :=
  ∀ environment closure nodes,
    (less environment closure nodes).Extends (more environment closure nodes)

theorem evaluateCall_extends (enter : less.Extends more) {head : MixinHead} {span : Span}
    {block : Option (List Node)} :
    (evaluateCall limit less environment closure head span block).Extends
      (evaluateCall limit more environment closure head span block) := by
  apply (Extends.refl _).bind
  intro page
  apply (Extends.refl _).bind
  intro callee
  dsimp only
  split
  · exact .refl _
  · exact enter _ _ _

theorem evaluateLeaf_extends (enter : less.Extends more) (span : Span) (content : Leaf) :
    (evaluateLeaf limit less environment closure span content).Extends
      (evaluateLeaf limit more environment closure span content) := by
  cases content with
  | mixinBlock =>
      simp only [evaluateLeaf, evaluateBlock]
      split
      · exact .refl _
      · exact .refl _
      · exact enter _ _ _
  | mixin head =>
      simp only [evaluateLeaf]
      split
      · exact evaluateCall_extends enter
      · exact .refl _
  | _ => exact .refl _

mutual

theorem evaluateNode_extends (enter : less.Extends more) (node : Node) :
    (evaluateNode limit less environment closure node).Extends
      (evaluateNode limit more environment closure node) := by
  match node with
  | .leaf span content => exact evaluateLeaf_extends enter span content
  | .file span use reference loaded children => exact .refl _
  | .branch span label children =>
      have content := evaluateNodes_extends enter children
      cases label with
      | block => simpa only [evaluateNode] using content
      | tag head body =>
          simp only [evaluateNode]
          exact evaluateElement_extends content
      | variableTag head body =>
          simp only [evaluateNode]
          exact (Extends.refl _).bind fun name => evaluateElement_extends content
      | mixin head body =>
          simp only [evaluateNode]
          split
          · exact evaluateCall_extends enter
          · exact .refl _
      | blockComment value buffered body =>
          simp only [evaluateNode]
          split
          · exact (Extends.refl _).bind fun _ => content.bind fun _ => .refl _
          · exact .refl _
      | _ => exact .refl _

theorem evaluateNodes_extends (enter : less.Extends more) (nodes : List Node) :
    (evaluateNodes limit less environment closure nodes).Extends
      (evaluateNodes limit more environment closure nodes) := by
  match nodes with
  | [] => exact .refl _
  | node :: rest =>
      simp only [evaluateNodes]
      exact (evaluateNode_extends enter node).bind fun _ => evaluateNodes_extends enter rest

end

end

theorem evaluate_extends_succ (limit fuel : Nat) (environment : Environment) (closure : Closure)
    (nodes : List Node) :
    (evaluate limit fuel environment closure nodes).Extends
      (evaluate limit (fuel + 1) environment closure nodes) := by
  induction fuel generalizing environment closure nodes with
  | zero => exact fun page => .inl ⟨page, rfl⟩
  | succ fuel ih => exact evaluateNodes_extends ih nodes

/-- More fuel does not change the page, nor the fault. -/
theorem evaluatePage?_of_le {fuel larger : Nat} {document : Document} {options : RenderOptions}
    {result : Except (Diagnostic RenderFault) String}
    (told : evaluatePage? fuel document options = some result) (le : fuel ≤ larger) :
    evaluatePage? larger document options = some result := by
  induction le with
  | refl => exact told
  | @step larger _ ih =>
      rw [← ih]
      unfold evaluatePage? at ih ⊢
      rcases evaluate_extends_succ options.maxMixinDepth larger (.ofBindings options.globals)
        .outermost document.nodes ⟨doctype, fun _ => none⟩ with ⟨left, exhausted⟩ | same
      · simp [exhausted] at ih
      · rw [same]

end Offside.Html
