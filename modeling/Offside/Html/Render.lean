import Offside.Html.Machine

/-!
# Writing a document as a page

The nodes of a document are visited in order, and each adds its text to the page. A mixin's body is
rendered one level of calls deeper than the call; at the last level there can be no further call.
-/

namespace Offside.Html

open Rendering

/-- The elements that have no content and no end tag. -/
def voidElements : List String :=
  ["area", "base", "br", "col", "embed", "hr", "img", "input", "link", "meta", "source", "track",
    "wbr"]

/-- The texts of the classes among some attributes. -/
def classTexts (attributes : List Attribute) : List String :=
  (attributes.filter fun entry => entry.name = "class").filterMap fun entry =>
    entry.value.text?.map (written entry.escaped)

/-- An attribute as it is written in a start tag. -/
def attributeText (entry : Attribute) : String :=
  match entry.value with
  | .present => " " ++ entry.name
  | .text value => " " ++ entry.name ++ "=\x22" ++ written entry.escaped value ++ "\x22"

/-- Attributes as they are written, when the classes are given. All classes are written in the
place of the first one. -/
def attributesWith (classes : List String) : (classesWritten : Bool) → List Attribute → String
  | _, [] => ""
  | classesWritten, entry :: rest =>
      if entry.name = "class" ∧ classes ≠ [] then
        (if classesWritten then "" else " class=\x22" ++ " ".intercalate classes ++ "\x22") ++
          attributesWith classes true rest
      else
        attributeText entry ++ attributesWith classes classesWritten rest

/-- The attributes of a start tag. -/
def attributesText (attributes : List Attribute) : String :=
  attributesWith (classTexts attributes) false attributes

/-- The start tag of an element. -/
def startTag (name : String) (attributes : List Attribute) : String :=
  "<" ++ name ++ attributesText attributes ++ ">"

/-- The end tag of an element. -/
def endTag (name : String) : String :=
  "</" ++ name ++ ">"

/-- An element with its content. -/
def element (name : String) (span : Span) (selfClosing : Bool) (attributes : List Attribute)
    (children : List Node) (content : Rendering Unit) : Rendering Unit := do
  write (startTag name attributes)
  if selfClosing || voidElements.contains name then
    if children.any (!·.isBlankText) then
      fail span (.voidElementWithContent name)
  else
    content
    write (endTag name)

/-- The value of an argument, in the scope of the call. -/
def argumentValue (argument : List Char) (span : Span) : Rendering String :=
  match Text.literal? argument with
  | some value => return String.ofList value
  | none =>
      if isNumber argument then
        return String.ofList argument
      else if isName argument then
        lookup (String.ofList argument) span
      else
        fail span (.invalidArgument (String.ofList argument))

/-- Bind parameters to the values of arguments; of two parameters with one name the last counts. -/
def bindArguments (span : Span) : List (String × List Char) → List (String × String) →
    Rendering (List (String × String))
  | [], bindings => return bindings
  | (parameter, argument) :: rest, bindings => do
      let value ← argumentValue argument span
      bindArguments span rest ((parameter, value) :: bindings)

/-- Declare a mixin. -/
def declareMixin (head : MixinHead) (span : Span) (body : List Node) : Rendering Unit := do
  let parameters := listItems (head.arguments.getD "").toList
  match parameters.find? (!isName ·) with
  | some parameter => fail span (.invalidParameter (String.ofList parameter))
  | none =>
      modify fun machine =>
        (machine.note (.mixinDeclared head.name parameters.length)).declare head.name
          ⟨parameters.map String.ofList, body⟩

/-- How to render one level of calls deeper, given how to render the block of the call. There may
be no deeper level. -/
abbrev Deeper := Option ((block : Rendering Unit) → (body : List Node) → Rendering Unit)

/-- Call a mixin. Its block is rendered where the body of the mixin asks for it. -/
def callMixin (limit : Nat) (deeper : Deeper) (head : MixinHead) (span : Span)
    (block : Rendering Unit) : Rendering Unit := do
  match (← get).mixins.lookup head.name with
  | none => fail span (.undefinedMixin head.name)
  | some definition =>
      let arguments := listItems (head.arguments.getD "").toList
      if arguments.length ≠ definition.parameters.length then
        fail span (.argumentCountMismatch head.name definition.parameters.length arguments.length)
      let bindings ← bindArguments span (definition.parameters.zip arguments) []
      match deeper with
      | none => fail span (.recursionLimit limit)
      | some deeper =>
          bracket
            (fun machine => (machine.frames.size, machine.scope))
            (fun machine =>
              let entered := machine.enter bindings
              entered.note (.mixinCalled head.name entered.calls.length))
            (fun (frames, scope) machine => machine.leave frames scope)
            (deeper block definition.body)

/-- Render the block of the innermost call, in the scope of its caller. -/
def mixinBlock (span : Span) (block : Rendering Unit) : Rendering Unit := do
  match (← get).calls with
  | [] => fail span .callStackUnderflow
  | call :: _ =>
      bracket (·.scope) (·.suspend call) (fun scope machine => machine.resume call scope) block

/-- A variable. -/
def showVariable (expression : String) (escaped : Bool) (span : Span) : Rendering Unit := do
  let value ← lookup expression span
  write (written escaped value)

/-- A node without a body. -/
def leafText (limit : Nat) (deeper : Deeper) (block : Rendering Unit) (span : Span) :
    Leaf → Rendering Unit
  | .mixinBlock => mixinBlock span block
  | .yieldSlot => return
  | .doctype _ => return
  | .text value _ => write value
  | .code expression buffered escaped _ =>
      if buffered then showVariable expression escaped span else return
  | .comment value buffered => if buffered then write ("<!--" ++ value ++ "-->") else return
  | .mixin head =>
      if head.isCall then callMixin limit deeper head span (return) else declareMixin head span []

mutual

/-- Visit a node. The block is what the innermost call was given. -/
def visit (limit : Nat) (deeper : Deeper) (block : Rendering Unit) : Node → Rendering Unit
  | .leaf span content => leafText limit deeper block span content
  | .branch span label children =>
      match label with
      | .block => visitAll limit deeper block children
      | .tag head _ =>
          element head.name span head.selfClosing head.attributes children
            (visitAll limit deeper block children)
      | .variableTag head _ => do
          let name ← lookup head.expression span
          element name span head.selfClosing head.attributes children
            (visitAll limit deeper block children)
      | .mixin head _ =>
          if head.isCall then
            callMixin limit deeper head span (visitAll limit deeper block children)
          else
            declareMixin head span children
      | .blockComment value buffered _ =>
          if buffered then do
            write ("<!--" ++ value)
            visitAll limit deeper block children
            write "-->"
          else
            return
      | .namedBlock .. | .filter .. => fail span (.unsupportedNode label.kind)
  | .file span use _ _ _ => fail span (.unsupportedNode use.kind)

/-- Visit nodes in order. -/
def visitAll (limit : Nat) (deeper : Deeper) (block : Rendering Unit) : List Node → Rendering Unit
  | [] => return
  | node :: rest => do
      visit limit deeper block node
      visitAll limit deeper block rest

end

/-- How to render when a number of further levels of calls is allowed. -/
def levels (limit : Nat) : (remaining : Nat) → Deeper
  | 0 => none
  | remaining + 1 => some fun block body => visitAll limit (levels limit remaining) block body

/-- Options for rendering. -/
structure RenderOptions where
  globals : List (String × String) := []
  maxMixinDepth : Nat := 256

/-- The document type declaration, which comes first in each page. -/
def doctype : String := "<!DOCTYPE html>"

/-- The page of a linked and filtered document. -/
def render (document : Document) (options : RenderOptions) :
    EStateM (Diagnostic RenderFault) (Array Event) String := fun events =>
  let deeper := levels options.maxMixinDepth options.maxMixinDepth
  let start := Machine.start options.globals doctype events
  match visitAll options.maxMixinDepth deeper (return) document.nodes start with
  | .ok _ machine =>
      .ok machine.output
        (machine.events.push (.rendered machine.output.utf8ByteSize machine.mixins.length))
  | .error fault machine => .error fault machine.events

end Offside.Html
