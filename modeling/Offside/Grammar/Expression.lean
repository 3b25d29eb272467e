import Offside.Grammar.Tag

/-!
# The grammar of documents

The whole grammar is built in layers: each layer reads expressions and blocks by means of the layer
below it, and the number of layers bounds how deep they can be nested.
-/

namespace Offside

open Parsing

namespace Grammar

section

variable (hooks : Hooks) (layer : (inMixin : Bool) → Grammar) (inMixin : Bool)

/-- The rest of an indented block. -/
def blockNodes (inner : Grammar) : (budget : Nat) → Document → Parsing Document
  | 0, _ => throw .exhausted
  | budget + 1, block => do
      match (← peek).kind with
      | .outdent =>
          let _ ← advance
          return block
      | .newline =>
          let _ ← advance
          blockNodes inner budget block
      | .html _ =>
          let nodes ← html inner budget
          blockNodes inner budget { block with nodes := block.nodes ++ nodes }
      | _ =>
          let node ← inner.expression
          blockNodes inner budget { block with nodes := splice block.nodes node }

/-- An indented block. -/
def indentedBlock (inner : Grammar) (budget : Nat) : Parsing Document := do
  let token ← expect "indent"
  blockNodes inner budget ⟨← place token.span, []⟩

/-- A filter, whose token has been read: its text stands behind it or in a text block, or another
filter follows, whose result it works on. -/
def filter (inner : Grammar) : (budget : Nat) → (name : String) → (span : Span) → Parsing Node
  | 0, _, _ => throw .exhausted
  | budget + 1, name, span => do
      let found ← attributesIfAny budget
      let token ← peek
      let body : Document ←
        match token.kind with
        | .text value =>
            let _ ← advance
            pure ⟨← place token.span, [← textNode token value]⟩
        | .filter nested =>
            let _ ← advance
            pure ⟨span, [← filter inner budget nested (← place token.span)]⟩
        | _ => textBlockAt hooks inner budget span
      return .branch span (.filter name found body.span) body.nodes

/-- The filters of an included file. -/
def includeFilters : (budget : Nat) → List IncludeFilter → Parsing (List IncludeFilter)
  | 0, _ => throw .exhausted
  | budget + 1, found => do
      let token ← peek
      match token.kind with
      | .filter name =>
          let _ ← advance
          let attributes ← attributesIfAny budget
          includeFilters budget (found ++ [⟨← place token.span, name, attributes⟩])
      | _ => return found

/-- Whether a path is that of a template. -/
def isTemplatePath (path : String) : Bool :=
  ".pg".toList.isSuffixOf path.toList

/-- An included file, whose keyword has been read: a template, unless it has another name or goes
through filters. -/
def inclusion (inner : Grammar) (budget : Nat) (span : Span) : Parsing Node := do
  let filters ← includeFilters budget []
  let (pathToken, path) ← expectPath
  let reference : Reference := { span := ← place pathToken.span, path := path }
  let token ← peek
  let indented :=
    match token.kind with
    | .indent _ => true
    | _ => false
  if isTemplatePath path && filters.isEmpty then
    let body : Document ← if indented then inner.block else pure ⟨span, []⟩
    return .file span (.inclusion body.span) reference [] body.nodes
  else if indented then
    fail token.span .rawIncludeBlock
  else
    return .file span (.raw filters) reference [] []

/-- The declaration of a mixin, whose token has been read. -/
def mixin (inside : Grammar) (name : String) (arguments : Option String) (start : Span) :
    Parsing Node := do
  match (← peek).kind with
  | .indent _ =>
      let body ← inside.block
      return .branch (← place start) (.mixin ⟨name, arguments, false, []⟩ body.span) body.nodes
  | _ => fail start (.mixinWithoutBody name)

/-- An expression: what starts with the next token. -/
def expressionRule (budget : Nat) : Parsing Node := do
  let inner := layer inMixin
  let token ← peek
  let span ← place token.span
  match token.kind with
  | .tag name =>
      let _ ← advance
      namedTag hooks inner budget name span
  | .id _ | .className _ => namedTag hooks inner budget "div" span
  | .mixin name arguments =>
      let _ ← advance
      mixin (layer true) name arguments token.span
  | .namedBlock name mode =>
      let _ ← advance
      let nodes ←
        match (← peek).kind with
        | .indent _ => pure (← inner.block).nodes
        | _ => pure []
      return .branch span (.namedBlock (trimmed name) mode) nodes
  | .mixinBlock =>
      let _ ← advance
      if inMixin then return .leaf span .mixinBlock else fail token.span .blockOutsideMixin
  | .inheritance =>
      let _ ← advance
      let (pathToken, path) ← expectPath
      return .file span .inheritance { span := ← place pathToken.span, path := path } [] []
  | .inclusion =>
      let _ ← advance
      inclusion inner budget span
  | .doctype value =>
      let _ ← advance
      return .leaf span (.doctype value)
  | .filter name =>
      let _ ← advance
      filter hooks inner budget name span
  | .comment value buffered =>
      let _ ← advance
      match ← textBlockIfAny hooks inner budget with
      | some body => return .branch span (.blockComment value buffered body.span) body.nodes
      | none => return .leaf span (.comment value buffered)
  | .text _ | .code .. | .startInterpolation => text hooks inner true budget
  | .html _ => return .branch span .block (← html inner budget)
  | .dot =>
      let _ ← advance
      let body ← textBlockAt hooks inner budget span
      return .branch body.span .block body.nodes
  | .call name arguments =>
      let _ ← advance
      call hooks inner budget name arguments span
  | .interpolation expression =>
      let _ ← advance
      variableTag hooks inner budget expression span
  | .yieldSlot =>
      let _ ← advance
      return .leaf span .yieldSlot
  | _ =>
      let (outcome, _) ← hooks.ask inner .expression ()
      match outcome with
      | .node node => return node
      | .handled => return .branch (← place (← peek).span) .block []
      | .declined => fail (← peek).span (.unexpectedToken token.name)

end

end Grammar

/-- The grammar with a number of layers. In the innermost one everything is out of budget. -/
def grammar (hooks : Hooks) : (layers : Nat) → (inMixin : Bool) → Grammar
  | 0, _ => ⟨throw .exhausted, throw .exhausted, throw .exhausted⟩
  | layers + 1, inMixin =>
      { expression := fun stream =>
          Grammar.expressionRule hooks (grammar hooks layers) inMixin layers stream
        block := fun stream =>
          Grammar.indentedBlock (grammar hooks layers inMixin) layers stream
        textBlock := fun stream =>
          Grammar.textBlockIfAny hooks (grammar hooks layers inMixin) layers stream }

/-- The nodes of a whole document. -/
def documentNodes (inner : Grammar) : (budget : Nat) → List Node → Parsing (List Node)
  | 0, _ => throw .exhausted
  | budget + 1, nodes => do
      match (← peek).kind with
      | .eos => return nodes
      | .newline =>
          let _ ← advance
          documentNodes inner budget nodes
      | .html _ =>
          let found ← Grammar.html inner budget
          documentNodes inner budget (nodes ++ found)
      | _ =>
          let node ← inner.expression
          documentNodes inner budget (Grammar.splice nodes node)

/-- A whole document from a stream of tokens. -/
def documentRule (hooks : Hooks) (budget : Nat) : Parsing Document := do
  let nodes ← documentNodes (grammar hooks budget false) budget []
  return ⟨⟨(← get).file, 0, 0⟩, nodes⟩

/-- Enough steps for a number of tokens. An expression reads at least one token, and so does each
round of a loop but the last. -/
def parseBudget (tokens : Nat) : Nat :=
  8 * (tokens + 2)

/-- Options for reading a document. -/
structure ParseOptions where
  file : Option String := none
  source : Option String := none
  hooks : Hooks := Hooks.none

/-- The document that some tokens form. -/
def parse (tokens : List Token) (options : ParseOptions) :
    EStateM (Diagnostic ParseFault) (Array Event) Document := fun events =>
  let stream := { TokenStream.ofTokens options.file options.source tokens with events := events }
  match documentRule options.hooks (parseBudget tokens.length) stream with
  | .ok document stream =>
      .ok document (stream.events.push (.parsed document.nodes.length options.file))
  | .error (.fault fault) stream => .error fault stream.events
  | .error .exhausted stream =>
      .error (stream.fault stream.next.span (.unexpectedToken stream.next.name)) stream.events

end Offside
