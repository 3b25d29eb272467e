import Offside.Grammar.Stream

/-!
# Hooks

The grammar can be extended: in five contexts a hook may take care of a token that the grammar
itself does not know there. There is at most one hook for a context and a name of a token.
-/

namespace Offside

/-- Where in the grammar a hook is asked. -/
inductive HookContext where
  /-- A token that starts no expression. -/
  | expression
  /-- A token that ends a run of text. -/
  | text
  /-- A token behind a tag's ids, classes and attributes. -/
  | tagAttribute
  /-- A token where a tag's text would be. -/
  | tag
  /-- A token in a text block that is not text. -/
  | textBlock
deriving DecidableEq

/-- The name of a context in messages. -/
def HookContext.name : HookContext → String
  | expression => "expressionTokens"
  | text => "textTokens"
  | tagAttribute => "tagAttributeTokens"
  | tag => "tagTokens"
  | textBlock => "textBlockTokens"

/-- A tag that is being put together. -/
structure TagParts where
  span : Span
  attributes : List Attribute := []
  body : Document
  selfClosing : Bool := false
  textOnly : Bool := false
  /-- The names of the attributes so far, for which there may be no second one. -/
  names : List String := []

/-- A tag with nothing in it. -/
def TagParts.start (span : Span) : TagParts where
  span := span
  body := ⟨span, []⟩

/-- What a hook can change, by context. -/
def HookContext.Target : HookContext → Type
  | expression => Unit
  | text => List Node
  | tagAttribute => TagParts
  | tag => TagParts
  | textBlock => Document

/-- What a hook decided. -/
inductive HookOutcome where
  /-- The grammar goes on as if there were no hook. -/
  | declined
  /-- The hook took care of the token. -/
  | handled
  /-- The hook took care of the token, and this node is to be added. -/
  | node (node : Node)

/-- The parts of the grammar that others, and hooks, can use. -/
structure Grammar where
  expression : Parsing Node
  /-- An indented block. -/
  block : Parsing Document
  /-- A text block, if there is one. -/
  textBlock : Parsing (Option Document)

/-- A hook for a context. -/
abbrev Hook (context : HookContext) :=
  Grammar → context.Target → Parsing (HookOutcome × context.Target)

/-- The hooks by context and name of a token. -/
abbrev Hooks := (context : HookContext) → String → Option (Hook context)

/-- A second hook for the same context and token. -/
structure DuplicateHook where
  context : HookContext
  token : String

/-- The message in words. -/
def DuplicateHook.message (duplicate : DuplicateHook) : String :=
  "Multiple plugin handlers found for context \x22" ++ duplicate.context.name ++
    "\x22, token type \x22" ++ duplicate.token ++ "\x22"

namespace Hooks

/-- No hooks at all. -/
def none : Hooks := fun _ _ => .none

/-- One more hook. -/
def register (hooks : Hooks) (context : HookContext) (token : String) (hook : Hook context) :
    Except DuplicateHook Hooks :=
  if (hooks context token).isSome then
    .error ⟨context, token⟩
  else
    .ok fun other name =>
      if same : other = context then
        if name = token then some (same ▸ hook) else hooks other name
      else
        hooks other name

/-- Ask the hook for the next token, if there is one. -/
def ask (hooks : Hooks) (grammar : Grammar) (context : HookContext) (target : context.Target) :
    Parsing (HookOutcome × context.Target) := do
  match hooks context (← Parsing.peek).name with
  | .none => return (.declined, target)
  | .some hook => hook grammar target

end Hooks

end Offside
