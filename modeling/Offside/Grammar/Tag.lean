import Offside.Grammar.Text

/-!
# The grammar of tags

Behind the name of a tag, an interpolated tag or a call stand ids, classes and attributes, then
text, another tag or a sign, and below it an indented block or a text block.
-/

namespace Offside

open Parsing

namespace Grammar

section

variable (hooks : Hooks) (inner : Grammar)

/-- The attributes of a list up to its end. When names are given, no attribute but a class may have
a name that is among them. -/
def attributeTokens : (budget : Nat) → Option (List String) → List Attribute →
    Parsing (Option (List String) × List Attribute)
  | 0, _, _ => throw .exhausted
  | budget + 1, names, found => do
      let token ← peek
      match token.kind with
      | .attributeEntry name value =>
          let _ ← advance
          let span ← place token.span
          let names ←
            match names with
            | some names =>
                if name = "class" then pure (some names)
                else if names.contains name then fail token.span (.duplicateAttribute name)
                else pure (some (names ++ [name]))
            | none => pure none
          attributeTokens budget names (found ++ [⟨span, name, value, true⟩])
      | _ =>
          let _ ← expect "end-attributes"
          return (names, found)

/-- A list of attributes. -/
def attributes (budget : Nat) (names : Option (List String)) :
    Parsing (Option (List String) × List Attribute) := do
  let _ ← expect "start-attributes"
  attributeTokens budget names []

/-- A list of attributes whose names need not differ, or none. -/
def attributesIfAny (budget : Nat) : Parsing (List Attribute) := do
  match (← peek).kind with
  | .startAttributes => return (← attributes budget none).2
  | _ => return []

/-- The ids, classes and lists of attributes behind a name. -/
def tagAttributes : (budget : Nat) → (seenList : Bool) → TagParts → Parsing TagParts
  | 0, _, _ => throw .exhausted
  | budget + 1, seenList, parts => do
      let token ← peek
      match token.kind with
      | .id value =>
          let _ ← advance
          if parts.names.contains "id" then
            fail token.span .duplicateId
          tagAttributes budget seenList { parts with
            names := parts.names ++ ["id"]
            attributes := parts.attributes ++
              [⟨← place token.span, "id", .text value, false⟩] }
      | .className value =>
          let _ ← advance
          tagAttributes budget seenList { parts with
            attributes := parts.attributes ++
              [⟨← place token.span, "class", .text value, false⟩] }
      | .startAttributes =>
          if seenList then
            modify fun stream => { stream with
              events := stream.events.push (.attributesRepeated stream.file token.span.line) }
          let (names, found) ← attributes budget (some parts.names)
          tagAttributes budget true { parts with
            names := names.getD parts.names
            attributes := parts.attributes ++ found }
      | _ =>
          let (outcome, parts) : HookOutcome × TagParts ← hooks.ask inner .tagAttribute parts
          match outcome with
          | .declined => return parts
          | .handled => tagAttributes budget seenList parts
          | .node node =>
              tagAttributes budget seenList { parts with
                body := { parts.body with nodes := parts.body.nodes ++ [node] } }

/-- The text, the nested tag or the sign behind the attributes. -/
def tagContent (budget : Nat) (selfClosingAllowed : Bool) (parts : TagParts) :
    Parsing TagParts := do
  let other (found : String) : Parsing TagParts := do
    let (outcome, parts) : HookOutcome × TagParts ← hooks.ask inner .tag parts
    match outcome with
    | .declined => fail (← peek).span (.unexpectedInTag found selfClosingAllowed)
    | .handled => return parts
    | .node node =>
        return { parts with body := { parts.body with nodes := parts.body.nodes ++ [node] } }
  let token ← peek
  match token.kind with
  | .text _ | .code .. =>
      let node ← text hooks inner false budget
      return { parts with body := { parts.body with nodes := splice parts.body.nodes node } }
  | .colon =>
      let _ ← advance
      match ← inner.expression with
      | .branch span .block nodes => return { parts with body := ⟨span, nodes⟩ }
      | node => return { parts with body := ⟨parts.span, [node]⟩ }
  | .newline | .indent _ | .outdent | .eos | .startTextBlock | .endInterpolation => return parts
  | .slash =>
      if selfClosingAllowed then
        let _ ← advance
        return { parts with selfClosing := true }
      else
        other token.name
  | _ => other token.name

/-- Skip newlines. -/
def skipNewlines : (budget : Nat) → Parsing Unit
  | 0 => throw .exhausted
  | budget + 1 => do
      match (← peek).kind with
      | .newline =>
          let _ ← advance
          skipNewlines budget
      | _ => return

/-- Everything behind the name of a tag or a call. -/
def tag (budget : Nat) (selfClosingAllowed : Bool) (span : Span) : Parsing TagParts := do
  let parts ← tagAttributes hooks inner budget false (.start span)
  let parts ←
    match (← peek).kind with
    | .dot =>
        let _ ← advance
        pure { parts with textOnly := true }
    | _ => pure parts
  let parts ← tagContent hooks inner budget selfClosingAllowed parts
  skipNewlines budget
  if parts.textOnly then
    return { parts with body := ← textBlockAt hooks inner budget parts.span }
  else
    match (← peek).kind with
    | .indent _ =>
        let block ← inner.block
        return { parts with body := { parts.body with nodes := parts.body.nodes ++ block.nodes } }
    | _ => return parts

/-- A tag with a name, whose token has been read. -/
def namedTag (budget : Nat) (name : String) (span : Span) : Parsing Node := do
  let parts ← tag hooks inner budget true span
  return .branch span
    (.tag ⟨name, parts.selfClosing, inlineTags.contains name, parts.textOnly, parts.attributes⟩
      parts.body.span)
    parts.body.nodes

/-- A tag named by a variable, whose token has been read. -/
def variableTag (budget : Nat) (expression : String) (span : Span) : Parsing Node := do
  let parts ← tag hooks inner budget true span
  return .branch span
    (.variableTag ⟨expression, parts.selfClosing, parts.textOnly, parts.attributes⟩
      parts.body.span)
    parts.body.nodes

/-- A call of a mixin, whose token has been read. -/
def call (budget : Nat) (name : String) (arguments : Option String) (span : Span) :
    Parsing Node := do
  let parts ← tag hooks inner budget false span
  let head : MixinHead := ⟨name, arguments, true, parts.attributes⟩
  if parts.body.nodes.isEmpty then
    return .leaf span (.mixin head)
  else
    return .branch span (.mixin head parts.body.span) parts.body.nodes

end

end Grammar

end Offside
