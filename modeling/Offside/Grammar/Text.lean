import Offside.Grammar.Hook

/-!
# The grammar of text

Runs of text with what is interpolated in them, lines that are copied to the page, and text blocks.
-/

namespace Offside

open Parsing

namespace Grammar

section

variable (hooks : Hooks) (inner : Grammar)

/-- Add a node to a list; a block without a name is dissolved into its nodes. -/
def splice (nodes : List Node) : Node → List Node
  | .branch _ .block children => nodes ++ children
  | node => nodes ++ [node]

/-- An interpolated tag, whose opening token has been seen. -/
def interpolated : Parsing Node := do
  let _ ← advance
  let node ← inner.expression
  let _ ← expect "end-interpolation"
  return node

/-- The nodes of a run of text. In block mode the run goes on over newlines, which count where text
follows them. -/
def textNodes (blockMode : Bool) : (budget : Nat) → List Node → Parsing (List Node)
  | 0, _ => throw .exhausted
  | budget + 1, nodes => do
      let token ← peek
      match token.kind with
      | .text value =>
          let _ ← advance
          textNodes blockMode budget (nodes ++ [← textNode token value])
      | .code expression buffered escaped =>
          let _ ← advance
          let code := .leaf (← place token.span) (.code expression buffered escaped true)
          textNodes blockMode budget (nodes ++ [code])
      | .newline =>
          if blockMode then
            let _ ← advance
            match (← peek).kind with
            | .text _ | .code .. =>
                textNodes blockMode budget (nodes ++ [← textNode token "\n"])
            | _ => textNodes blockMode budget nodes
          else
            return nodes
      | .startInterpolation =>
          let node ← interpolated inner
          textNodes blockMode budget (nodes ++ [node])
      | _ =>
          let (outcome, nodes) : HookOutcome × List Node ← hooks.ask inner .text nodes
          match outcome with
          | .declined => return nodes
          | .handled => textNodes blockMode budget nodes
          | .node node => textNodes blockMode budget (nodes ++ [node])

/-- A run of text: its only node, or a block of its nodes. -/
def text (blockMode : Bool) (budget : Nat) : Parsing Node := do
  let span ← place (← peek).span
  match ← textNodes hooks inner blockMode budget [] with
  | [node] => return node
  | nodes => return .branch span .block nodes

/-- Lines that are copied to the page: the nodes that are finished, and a text that is still
open. -/
structure HtmlRun where
  nodes : List Node := []
  pending : Option (Span × String) := none

namespace HtmlRun

/-- All nodes, the open one among them. -/
def close (run : HtmlRun) : List Node :=
  match run.pending with
  | some (span, value) => run.nodes ++ [.leaf span (.text value true)]
  | none => run.nodes

/-- One more line, which joins the open text. -/
def line (run : HtmlRun) (span : Span) (value : String) : HtmlRun :=
  match run.pending with
  | some (start, text) => { run with pending := some (start, text ++ "\n" ++ value) }
  | none => { run with pending := some (span, value) }

/-- One more node: a line to copy, or something that ends the open text. -/
def add (run : HtmlRun) : Node → HtmlRun
  | .leaf span (.text value true) => run.line span value
  | node => ⟨run.close ++ [node], none⟩

end HtmlRun

/-- The lines to copy and what is indented below them. -/
def htmlRun : (budget : Nat) → HtmlRun → Parsing (List Node)
  | 0, _ => throw .exhausted
  | budget + 1, run => do
      let token ← peek
      match token.kind with
      | .html value =>
          let _ ← advance
          htmlRun budget (run.line (← place token.span) value)
      | .indent _ =>
          let block ← inner.block
          htmlRun budget (block.nodes.foldl HtmlRun.add run)
      | .newline =>
          let _ ← advance
          htmlRun budget run
      | _ => return run.close

/-- Lines to copy from the next token on. -/
def html (budget : Nat) : Parsing (List Node) :=
  htmlRun inner budget {}

/-- The rest of a text block. -/
def textBlockNodes : (budget : Nat) → Document → Parsing Document
  | 0, _ => throw .exhausted
  | budget + 1, block => do
      let add (node : Node) : Document := { block with nodes := block.nodes ++ [node] }
      let token ← peek
      match token.kind with
      | .endTextBlock =>
          let _ ← advance
          return block
      | .text value =>
          let _ ← advance
          textBlockNodes budget (add (← textNode token value))
      | .newline =>
          let _ ← advance
          textBlockNodes budget (add (← textNode token "\n"))
      | .startInterpolation =>
          let node ← interpolated inner
          textBlockNodes budget (add node)
      | .code expression buffered escaped =>
          let _ ← advance
          let code := .leaf (← place token.span) (.code expression buffered escaped true)
          textBlockNodes budget (add code)
      | .eos => fail token.span (.expected "end-pipeless-text" token.name)
      | _ =>
          let (outcome, block) : HookOutcome × Document ← hooks.ask inner .textBlock block
          match outcome with
          | .declined => fail (← peek).span (.unexpectedInTextBlock token.name)
          | .handled => textBlockNodes budget block
          | .node node =>
              textBlockNodes budget { block with nodes := block.nodes ++ [node] }

/-- A text block, if there is one. -/
def textBlockIfAny (budget : Nat) : Parsing (Option Document) := do
  let token ← peek
  match token.kind with
  | .startTextBlock =>
      let _ ← advance
      return some (← textBlockNodes hooks inner budget ⟨← place token.span, []⟩)
  | _ => return none

/-- A text block, or an empty one at a span. -/
def textBlockAt (budget : Nat) (span : Span) : Parsing Document := do
  return (← textBlockIfAny hooks inner budget).getD ⟨span, []⟩

end

end Grammar

end Offside
