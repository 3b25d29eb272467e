import Offside.Grammar.Expression
import Offside.Proofs.Parallel
import Offside.Proofs.Provenance.Grammar
import Offside.Proofs.Renumbering.Document

/-!
# Grammar and line numbers

The grammar looks at the kinds of tokens alone. From tokens with other line numbers it makes the
same document with these line numbers, or fails for the same reason at the same token, and it shows
whatever text it was given.
-/

namespace Offside

open Computing Parsing

/-- Other line numbers, and the texts that two templates are shown with. -/
structure Renumbering where
  line : Nat → Nat
  source : Option String
  otherSource : Option String

variable {change : Renumbering}

/-- A stream of the same tokens with other line numbers. -/
structure TokenStream.Renumbered (change : Renumbering) (stream other : TokenStream) : Prop where
  file : other.file = stream.file
  source : stream.source = change.source
  otherSource : other.source = change.otherSource
  pending : other.pending = stream.pending.map (Token.renumber change.line)
  ending : other.ending = stream.ending.renumber change.line

/-- A fault with another line number and another text. -/
def Diagnostic.renumber {κ : Type} (change : Renumbering) (fault : Diagnostic κ) : Diagnostic κ :=
  ⟨fault.cause, fault.span.renumber change.line, change.otherSource⟩

/-- A fault that comes with the one text, and the same fault with the other text. -/
structure Diagnostic.Renumbered {κ : Type} (change : Renumbering) (fault other : Diagnostic κ) :
    Prop where
  source : fault.source = change.source
  same : other = fault.renumber change

def ParseStop.Renumbered (change : Renumbering) : ParseStop → ParseStop → Prop
  | .fault found, .fault other => found.Renumbered change other
  | .exhausted, .exhausted => True
  | _, _ => False

@[simp]
theorem Token.kind_renumber (token : Token) : (token.renumber change.line).kind = token.kind := rfl

@[simp]
theorem Token.name_renumber (token : Token) : (token.renumber change.line).name = token.name := rfl

@[simp]
theorem Token.span_renumber (token : Token) :
    (token.renumber change.line).span = token.span.renumber change.line := rfl

namespace TokenStream.Renumbered

variable {stream other : TokenStream}

theorem next (renumbered : stream.Renumbered change other) :
    other.next = stream.next.renumber change.line := by
  unfold TokenStream.next
  rw [renumbered.pending, renumbered.ending]
  cases stream.pending <;> rfl

theorem place (renumbered : stream.Renumbered change other) (span : Span) :
    other.place (span.renumber change.line) = (stream.place span).renumber change.line := by
  unfold TokenStream.place
  rw [renumbered.file]
  rfl

theorem fault (renumbered : stream.Renumbered change other) (span : Span) (cause : ParseFault) :
    (stream.fault span cause).Renumbered change
      (other.fault (span.renumber change.line) cause) := by
  refine ⟨renumbered.source, ?_⟩
  rw [TokenStream.fault, renumbered.place, renumbered.otherSource]
  rfl

end TokenStream.Renumbered

/-- From the tokens with other line numbers the other computation gives the value with these line
numbers, or stops for the same reason. -/
def Parsing.Renumbers {α : Type} (change : Renumbering) (renumber : α → α)
    (action other : Parsing α) : Prop :=
  Parallel (TokenStream.Renumbered change) (fun value value' => value' = renumber value)
    (ParseStop.Renumbered change) action other

namespace Parsing.Renumbers

variable {α β : Type} {first : α → α} {last : β → β} {action other : Parsing α}
  {next otherNext : α → Parsing β}

theorem pure {value value' : α} (same : value' = first value) :
    Renumbers change first (pure value) (pure value') :=
  Parallel.pure same

theorem exhausted : Renumbers change first (throw .exhausted) (throw .exhausted) :=
  Parallel.throw trivial

theorem bind (before : Renumbers change first action other)
    (after : ∀ value, Renumbers change last (next value) (otherNext (first value))) :
    Renumbers change last (action >>= next) (other >>= otherNext) :=
  Parallel.bind_change before after

theorem pure_bind {value value' : α}
    (given : Renumbers change last (next value) (otherNext value')) :
    Renumbers change last (Pure.pure value >>= next) (Pure.pure value' >>= otherNext) :=
  given

theorem peek : Renumbers change (Token.renumber change.line) peek peek :=
  fun _ _ given => ⟨given.next, given⟩

theorem advance : Renumbers change (Token.renumber change.line) advance advance := by
  intro stream other given
  refine ⟨given.next, given.file, given.source, given.otherSource, ?_, given.ending⟩
  simp [given.pending]

theorem place (span : Span) :
    Renumbers change (Span.renumber change.line) (place span)
      (place (span.renumber change.line)) :=
  fun _ _ given => ⟨given.place span, given⟩

theorem fail (span : Span) (cause : ParseFault) :
    Renumbers change first (Parsing.fail span cause)
      (Parsing.fail (span.renumber change.line) cause) :=
  fun _ _ given => ⟨given.fault span cause, given⟩

theorem fail_bind (span : Span) (cause : ParseFault) :
    Renumbers change last (Parsing.fail span cause >>= next)
      (Parsing.fail (span.renumber change.line) cause >>= otherNext) :=
  fun _ _ given => ⟨given.fault span cause, given⟩

/-- Notes may differ. -/
theorem note (event event' : TokenStream → Event) :
    Renumbers change id
      (modify fun stream => { stream with events := stream.events.push (event stream) })
      (modify fun stream => { stream with events := stream.events.push (event' stream) }) :=
  fun _ _ given =>
    ⟨rfl, given.file, given.source, given.otherSource, given.pending, given.ending⟩

theorem expect (name : String) :
    Renumbers change (Token.renumber change.line) (expect name) (expect name) := by
  refine .bind .peek fun token => ?_
  rw [Token.name_renumber]
  split
  · exact .advance
  · exact .fail _ _

theorem expectPath :
    Renumbers change (fun found => (found.1.renumber change.line, found.2)) expectPath
      expectPath := by
  refine .bind .peek fun token => ?_
  rw [Token.kind_renumber]
  split
  · exact .bind .advance fun _ => .pure rfl
  · exact .fail _ _

theorem textNode (token : Token) (value : String) :
    Renumbers change (Node.renumber change.line) (textNode token value)
      (textNode (token.renumber change.line) value) :=
  .bind (.place _) fun _ => .pure rfl

end Parsing.Renumbers

/-- A tag that is being put together, with other line numbers. -/
def TagParts.renumber (line : Nat → Nat) (parts : TagParts) : TagParts :=
  { parts with
    span := parts.span.renumber line
    attributes := parts.attributes.map (Attribute.renumber line)
    body := parts.body.renumber line }

namespace Grammar

/-- A grammar that takes line numbers as they come. -/
structure Renumbers (change : Renumbering) (grammar : Grammar) : Prop where
  expression : Parsing.Renumbers change (Node.renumber change.line) grammar.expression
    grammar.expression
  block : Parsing.Renumbers change (Document.renumber change.line) grammar.block grammar.block
  textBlock : Parsing.Renumbers change (Option.map (Document.renumber change.line))
    grammar.textBlock grammar.textBlock

theorem renumberAll_splice (line : Nat → Nat) (nodes : List Node) (node : Node) :
    Node.renumberAll line (splice nodes node) =
      splice (Node.renumberAll line nodes) (node.renumber line) := by
  cases node with
  | leaf | file => simp [splice]
  | branch _ label => cases label <;> simp [splice, Label.renumber]

/-- Lines to copy with other line numbers. -/
def HtmlRun.renumber (line : Nat → Nat) (run : HtmlRun) : HtmlRun :=
  ⟨Node.renumberAll line run.nodes,
    run.pending.map fun open' => (open'.1.renumber line, open'.2)⟩

theorem HtmlRun.close_renumber (line : Nat → Nat) (run : HtmlRun) :
    (run.renumber line).close = Node.renumberAll line run.close := by
  rcases run with ⟨nodes, _ | ⟨span, value⟩⟩ <;> simp [renumber, close, Leaf.renumber]

theorem HtmlRun.line_renumber (line : Nat → Nat) (run : HtmlRun) (span : Span) (value : String) :
    (run.renumber line).line (span.renumber line) value = (run.line span value).renumber line := by
  rcases run with ⟨nodes, _ | ⟨start, text⟩⟩ <;> rfl

theorem HtmlRun.add_renumber (line : Nat → Nat) (run : HtmlRun) (node : Node) :
    (run.renumber line).add (node.renumber line) = (run.add node).renumber line := by
  have other : (⟨(run.renumber line).close ++ [node.renumber line], none⟩ : HtmlRun) =
      HtmlRun.renumber line ⟨run.close ++ [node], none⟩ := by
    rw [close_renumber]
    simp [renumber]
  cases node with
  | branch | file => exact other
  | leaf span content =>
      cases content with
      | text value html =>
          cases html with
          | true => exact run.line_renumber line span value
          | false => exact other
      | _ => exact other

theorem HtmlRun.foldl_add_renumber (line : Nat → Nat) (nodes : List Node) (run : HtmlRun) :
    (Node.renumberAll line nodes).foldl add (run.renumber line) =
      (nodes.foldl add run).renumber line := by
  induction nodes generalizing run with
  | nil => rfl
  | cons node rest ih => rw [Node.renumberAll_cons, List.foldl_cons, add_renumber, ih]; rfl

/-- Without hooks nothing is done about a token that the grammar does not know. -/
theorem renumbers_ask_bind {α : Type} {renumber : α → α} {grammar : Grammar}
    {context : HookContext} {target target' : context.Target}
    {next next' : HookOutcome × context.Target → Parsing α}
    (declined : Parsing.Renumbers change renumber (next (.declined, target))
      (next' (.declined, target'))) :
    Parsing.Renumbers change renumber (Hooks.none.ask grammar context target >>= next)
      (Hooks.none.ask grammar context target' >>= next') :=
  fun _ _ given => declined given

/-! ### Attributes -/

/-- What was read of a list of attributes, with other line numbers. -/
def renumberRead (line : Nat → Nat) (read : Option (List String) × List Attribute) :
    Option (List String) × List Attribute :=
  (read.1, read.2.map (Attribute.renumber line))

theorem renumbers_attributeTokens (budget : Nat) (names : Option (List String))
    (found : List Attribute) :
    Parsing.Renumbers change (renumberRead change.line) (attributeTokens budget names found)
      (attributeTokens budget names (found.map (Attribute.renumber change.line))) := by
  induction budget generalizing names found with
  | zero => exact .exhausted
  | succ budget ih =>
      refine .bind .peek fun token => ?_
      rw [Token.kind_renumber]
      split
      · refine .bind .advance fun _ => .bind (.place _) fun span => ?_
        have further (names : Option (List String)) (name : String) (value : AttributeValue) :
            Parsing.Renumbers change (renumberRead change.line)
              (attributeTokens budget names (found ++ [⟨span, name, value, true⟩]))
              (attributeTokens budget names (found.map (Attribute.renumber change.line) ++
                [⟨span.renumber change.line, name, value, true⟩])) := by
          have read := ih names (found ++ [⟨span, name, value, true⟩])
          rwa [List.map_append] at read
        dsimp only
        split
        · split
          · exact .pure_bind (further _ _ _)
          · split
            · exact .fail_bind _ _
            · exact .pure_bind (further _ _ _)
        · exact .pure_bind (further _ _ _)
      · exact .bind (.expect _) fun _ => .pure rfl

theorem renumbers_attributes (budget : Nat) (names : Option (List String)) :
    Parsing.Renumbers change (renumberRead change.line) (attributes budget names)
      (attributes budget names) :=
  .bind (.expect _) fun _ => renumbers_attributeTokens budget names []

theorem renumbers_attributesIfAny (budget : Nat) :
    Parsing.Renumbers change (List.map (Attribute.renumber change.line)) (attributesIfAny budget)
      (attributesIfAny budget) := by
  refine .bind .peek fun token => ?_
  rw [Token.kind_renumber]
  split
  · exact .bind (renumbers_attributes budget none) fun _ => .pure rfl
  · exact .pure rfl

/-! ### Text -/

section Text

variable {inner : Grammar} (renumbers : inner.Renumbers change)

include renumbers

theorem renumbers_interpolated :
    Parsing.Renumbers change (Node.renumber change.line) (interpolated inner)
      (interpolated inner) :=
  .bind .advance fun _ => .bind renumbers.expression fun _ =>
    .bind (.expect _) fun _ => .pure rfl

theorem renumbers_textNodes (blockMode : Bool) (budget : Nat) (nodes : List Node) :
    Parsing.Renumbers change (Node.renumberAll change.line)
      (textNodes Hooks.none inner blockMode budget nodes)
      (textNodes Hooks.none inner blockMode budget (Node.renumberAll change.line nodes)) := by
  induction budget generalizing nodes with
  | zero => exact .exhausted
  | succ budget ih =>
      have further (node : Node) :
          Parsing.Renumbers change (Node.renumberAll change.line)
            (textNodes Hooks.none inner blockMode budget (nodes ++ [node]))
            (textNodes Hooks.none inner blockMode budget
              (Node.renumberAll change.line nodes ++ [node.renumber change.line])) := by
        simpa using ih (nodes ++ [node])
      refine .bind .peek fun token => ?_
      rw [Token.kind_renumber]
      split
      · exact .bind .advance fun _ => .bind (.textNode _ _) fun node => further node
      · exact .bind .advance fun _ => .bind (.place _) fun span => further (.leaf span _)
      · split
        · refine .bind .advance fun _ => .bind .peek fun following => ?_
          rw [Token.kind_renumber]
          split
          · exact .bind (.textNode _ _) fun node => further node
          · exact .bind (.textNode _ _) fun node => further node
          · exact ih nodes
        · exact .pure rfl
      · exact .bind (renumbers_interpolated renumbers) fun node => further node
      · exact renumbers_ask_bind (.pure rfl)

theorem renumbers_text (blockMode : Bool) (budget : Nat) :
    Parsing.Renumbers change (Node.renumber change.line) (text Hooks.none inner blockMode budget)
      (text Hooks.none inner blockMode budget) := by
  refine .bind .peek fun token => .bind (.place _) fun span => ?_
  refine .bind (renumbers_textNodes renumbers blockMode budget []) fun nodes => ?_
  rcases nodes with _ | ⟨node, _ | _⟩
  · exact .pure rfl
  · exact .pure rfl
  · exact .pure rfl

theorem renumbers_htmlRun (budget : Nat) (run : HtmlRun) :
    Parsing.Renumbers change (Node.renumberAll change.line) (htmlRun inner budget run)
      (htmlRun inner budget (run.renumber change.line)) := by
  induction budget generalizing run with
  | zero => exact .exhausted
  | succ budget ih =>
      refine .bind .peek fun token => ?_
      rw [Token.kind_renumber]
      split
      · refine .bind .advance fun _ => .bind (.place _) fun span => ?_
        rw [run.line_renumber]
        exact ih _
      · refine .bind renumbers.block fun block => ?_
        rw [Document.renumber, run.foldl_add_renumber]
        exact ih _
      · exact .bind .advance fun _ => ih run
      · exact .pure (run.close_renumber _)

theorem renumbers_html (budget : Nat) :
    Parsing.Renumbers change (Node.renumberAll change.line) (html inner budget)
      (html inner budget) :=
  renumbers_htmlRun renumbers budget {}

theorem renumbers_textBlockNodes (budget : Nat) (block : Document) :
    Parsing.Renumbers change (Document.renumber change.line)
      (textBlockNodes Hooks.none inner budget block)
      (textBlockNodes Hooks.none inner budget (block.renumber change.line)) := by
  induction budget generalizing block with
  | zero => exact .exhausted
  | succ budget ih =>
      have further (node : Node) :
          Parsing.Renumbers change (Document.renumber change.line)
            (textBlockNodes Hooks.none inner budget { block with nodes := block.nodes ++ [node] })
            (textBlockNodes Hooks.none inner budget { block.renumber change.line with
              nodes := (block.renumber change.line).nodes ++ [node.renumber change.line] }) := by
        simpa [Document.renumber] using ih { block with nodes := block.nodes ++ [node] }
      refine .bind .peek fun token => ?_
      rw [Token.kind_renumber]
      split
      · exact .bind .advance fun _ => .pure rfl
      · exact .bind .advance fun _ => .bind (.textNode _ _) fun node => further node
      · exact .bind .advance fun _ => .bind (.textNode _ _) fun node => further node
      · exact .bind (renumbers_interpolated renumbers) fun node => further node
      · exact .bind .advance fun _ => .bind (.place _) fun span => further (.leaf span _)
      · exact .fail _ _
      · exact renumbers_ask_bind (.bind .peek fun token => .fail _ _)

theorem renumbers_textBlockIfAny (budget : Nat) :
    Parsing.Renumbers change (Option.map (Document.renumber change.line))
      (textBlockIfAny Hooks.none inner budget) (textBlockIfAny Hooks.none inner budget) := by
  refine .bind .peek fun token => ?_
  rw [Token.kind_renumber]
  split
  · exact .bind .advance fun _ => .bind (.place _) fun span =>
      .bind (renumbers_textBlockNodes renumbers budget ⟨span, []⟩) fun block => .pure rfl
  · exact .pure rfl

theorem renumbers_textBlockAt (budget : Nat) (span : Span) :
    Parsing.Renumbers change (Document.renumber change.line)
      (textBlockAt Hooks.none inner budget span)
      (textBlockAt Hooks.none inner budget (span.renumber change.line)) := by
  refine .bind (renumbers_textBlockIfAny renumbers budget) fun block => .pure ?_
  cases block <;> rfl

end Text

/-! ### Tags -/

section Tag

variable {inner : Grammar}

theorem renumbers_tagAttributes (budget : Nat) (seenList : Bool) (parts : TagParts) :
    Parsing.Renumbers change (TagParts.renumber change.line)
      (tagAttributes Hooks.none inner budget seenList parts)
      (tagAttributes Hooks.none inner budget seenList (parts.renumber change.line)) := by
  induction budget generalizing seenList parts with
  | zero => exact .exhausted
  | succ budget ih =>
      have further (seenList : Bool) (names : List String) (entries : List Attribute) :
          Parsing.Renumbers change (TagParts.renumber change.line)
            (tagAttributes Hooks.none inner budget seenList { parts with
              names := names
              attributes := parts.attributes ++ entries })
            (tagAttributes Hooks.none inner budget seenList { parts.renumber change.line with
              names := names
              attributes := (parts.renumber change.line).attributes ++
                entries.map (Attribute.renumber change.line) }) := by
        simpa [TagParts.renumber] using ih seenList
          { parts with names := names, attributes := parts.attributes ++ entries }
      refine .bind .peek fun token => ?_
      rw [Token.kind_renumber]
      split
      · refine .bind .advance fun _ => ?_
        have sameNames : (parts.renumber change.line).names = parts.names := rfl
        rw [sameNames]
        split
        · exact .fail_bind _ _
        · dsimp only
          exact .bind (.place _) fun span => further seenList _ [⟨span, _, _, _⟩]
      · exact .bind .advance fun _ => .bind (.place _) fun span =>
          further seenList parts.names [⟨span, _, _, _⟩]
      · split
        · exact .bind (.note _ _) fun _ => .bind (renumbers_attributes budget _) fun read =>
            further true (read.1.getD parts.names) read.2
        · exact .pure_bind (.bind (renumbers_attributes budget _) fun read =>
            further true (read.1.getD parts.names) read.2)
      · exact renumbers_ask_bind (.pure rfl)

theorem renumbers_skipNewlines (budget : Nat) :
    Parsing.Renumbers change id (skipNewlines budget) (skipNewlines budget) := by
  induction budget with
  | zero => exact .exhausted
  | succ budget ih =>
      refine .bind .peek fun token => ?_
      rw [Token.kind_renumber]
      split
      · exact .bind .advance fun _ => ih
      · exact .pure rfl

variable (renumbers : inner.Renumbers change)

include renumbers

theorem renumbers_tagContent (budget : Nat) (selfClosingAllowed : Bool) (parts : TagParts) :
    Parsing.Renumbers change (TagParts.renumber change.line)
      (tagContent Hooks.none inner budget selfClosingAllowed parts)
      (tagContent Hooks.none inner budget selfClosingAllowed (parts.renumber change.line)) := by
  have content (node : Node) : ({ parts.renumber change.line with
      body := { (parts.renumber change.line).body with
        nodes := splice (parts.renumber change.line).body.nodes (node.renumber change.line) } } :
      TagParts) = TagParts.renumber change.line { parts with
        body := { parts.body with nodes := splice parts.body.nodes node } } := by
    simp [TagParts.renumber, Document.renumber, renumberAll_splice]
  refine .bind .peek fun token => ?_
  rw [Token.kind_renumber]
  split
  · exact .bind (renumbers_text renumbers false budget) fun node => .pure (content node)
  · exact .bind (renumbers_text renumbers false budget) fun node => .pure (content node)
  · refine .bind .advance fun _ => .bind renumbers.expression fun node => ?_
    cases node with
    | leaf | file => exact .pure rfl
    | branch _ label =>
        cases label with
        | _ => exact .pure rfl
  · exact .pure rfl
  · exact .pure rfl
  · exact .pure rfl
  · exact .pure rfl
  · exact .pure rfl
  · exact .pure rfl
  · split
    · exact .bind .advance fun _ => .pure rfl
    · exact renumbers_ask_bind (.bind .peek fun _ => .fail _ _)
  · exact renumbers_ask_bind (.bind .peek fun _ => .fail _ _)

theorem renumbers_tag (budget : Nat) (selfClosingAllowed : Bool) (span : Span) :
    Parsing.Renumbers change (TagParts.renumber change.line)
      (tag Hooks.none inner budget selfClosingAllowed span)
      (tag Hooks.none inner budget selfClosingAllowed (span.renumber change.line)) := by
  refine .bind (renumbers_tagAttributes budget false (.start span)) fun parts =>
    .bind .peek fun token => ?_
  rw [Token.kind_renumber]
  dsimp only
  split
  case' h_1 =>
    refine .bind .advance fun _ => .pure_bind ?_
    refine .bind (renumbers_tagContent renumbers budget selfClosingAllowed
      { parts with textOnly := true }) fun parts => ?_
  case' h_2 =>
    refine .pure_bind ?_
    refine .bind (renumbers_tagContent renumbers budget selfClosingAllowed parts) fun parts => ?_
  all_goals
    have sameMode : (parts.renumber change.line).textOnly = parts.textOnly := rfl
    refine .bind (renumbers_skipNewlines budget) fun _ => ?_
    rw [sameMode]
    split
    · exact .bind (renumbers_textBlockAt renumbers budget parts.span) fun block => .pure rfl
    · refine .bind .peek fun token => ?_
      rw [Token.kind_renumber]
      split
      · refine .bind renumbers.block fun block => .pure ?_
        simp [TagParts.renumber, Document.renumber]
      · exact .pure rfl

theorem renumbers_namedTag (budget : Nat) (name : String) (span : Span) :
    Parsing.Renumbers change (Node.renumber change.line)
      (namedTag Hooks.none inner budget name span)
      (namedTag Hooks.none inner budget name (span.renumber change.line)) :=
  .bind (renumbers_tag renumbers budget true span) fun _ => .pure rfl

theorem renumbers_variableTag (budget : Nat) (expression : String) (span : Span) :
    Parsing.Renumbers change (Node.renumber change.line)
      (variableTag Hooks.none inner budget expression span)
      (variableTag Hooks.none inner budget expression (span.renumber change.line)) :=
  .bind (renumbers_tag renumbers budget true span) fun _ => .pure rfl

theorem renumbers_call (budget : Nat) (name : String) (arguments : Option String) (span : Span) :
    Parsing.Renumbers change (Node.renumber change.line)
      (call Hooks.none inner budget name arguments span)
      (call Hooks.none inner budget name arguments (span.renumber change.line)) := by
  refine .bind (renumbers_tag renumbers budget false span) fun parts => ?_
  have sameBody : (parts.renumber change.line).body.nodes.isEmpty = parts.body.nodes.isEmpty := by
    simp [TagParts.renumber, Document.renumber, Node.renumberAll_eq_map]
  dsimp only
  rw [sameBody]
  split
  · exact .pure rfl
  · exact .pure rfl

end Tag

/-! ### Expressions -/

section Expression

variable {inner : Grammar}

theorem renumbers_includeFilters (budget : Nat) (found : List IncludeFilter) :
    Parsing.Renumbers change (List.map (IncludeFilter.renumber change.line))
      (includeFilters budget found)
      (includeFilters budget (found.map (IncludeFilter.renumber change.line))) := by
  induction budget generalizing found with
  | zero => exact .exhausted
  | succ budget ih =>
      refine .bind .peek fun token => ?_
      rw [Token.kind_renumber]
      split
      · rename_i name _
        refine .bind .advance fun _ => .bind (renumbers_attributesIfAny budget) fun entries =>
          .bind (.place _) fun span => ?_
        have read := ih (found ++ [⟨span, name, entries⟩])
        rwa [List.map_append] at read
      · exact .pure rfl

variable (renumbers : inner.Renumbers change)

include renumbers

theorem renumbers_blockNodes (budget : Nat) (block : Document) :
    Parsing.Renumbers change (Document.renumber change.line) (blockNodes inner budget block)
      (blockNodes inner budget (block.renumber change.line)) := by
  induction budget generalizing block with
  | zero => exact .exhausted
  | succ budget ih =>
      refine .bind .peek fun token => ?_
      rw [Token.kind_renumber]
      split
      · exact .bind .advance fun _ => .pure rfl
      · exact .bind .advance fun _ => ih block
      · refine .bind (renumbers_html renumbers budget) fun nodes => ?_
        have read := ih { block with nodes := block.nodes ++ nodes }
        rwa [Document.renumber, Node.renumberAll_append] at read
      · refine .bind renumbers.expression fun node => ?_
        have read := ih { block with nodes := splice block.nodes node }
        rwa [Document.renumber, renumberAll_splice] at read

theorem renumbers_indentedBlock (budget : Nat) :
    Parsing.Renumbers change (Document.renumber change.line) (indentedBlock inner budget)
      (indentedBlock inner budget) :=
  .bind (.expect _) fun _ => .bind (.place _) fun span =>
    renumbers_blockNodes renumbers budget ⟨span, []⟩

theorem renumbers_filter (budget : Nat) (name : String) (span : Span) :
    Parsing.Renumbers change (Node.renumber change.line)
      (filter Hooks.none inner budget name span)
      (filter Hooks.none inner budget name (span.renumber change.line)) := by
  induction budget generalizing name span with
  | zero => exact .exhausted
  | succ budget ih =>
      refine .bind (renumbers_attributesIfAny budget) fun entries => .bind .peek fun token => ?_
      rw [Token.kind_renumber]
      dsimp only
      split
      · exact .bind .advance fun _ => .bind (.place _) fun start =>
          .bind (.textNode _ _) fun node => .pure_bind (.pure rfl)
      · exact .bind .advance fun _ => .bind (.place _) fun start =>
          .bind (ih _ start) fun node => .pure_bind (.pure rfl)
      · exact .bind (renumbers_textBlockAt renumbers budget span) fun body => .pure rfl

theorem renumbers_inclusion (budget : Nat) (span : Span) :
    Parsing.Renumbers change (Node.renumber change.line) (inclusion inner budget span)
      (inclusion inner budget (span.renumber change.line)) := by
  refine .bind (renumbers_includeFilters budget []) fun filters => ?_
  refine .bind .expectPath fun found => .bind (.place _) fun start => ?_
  refine .bind .peek fun token => ?_
  have sameFilters : (filters.map (IncludeFilter.renumber change.line)).isEmpty =
      filters.isEmpty := by
    simp
  rw [Token.kind_renumber, sameFilters]
  dsimp only
  split
  · split
    · exact .bind renumbers.block fun body => .pure rfl
    · exact .pure_bind (.pure rfl)
  · split
    · exact .fail _ _
    · exact .pure rfl

theorem renumbers_mixin (name : String) (arguments : Option String) (start : Span) :
    Parsing.Renumbers change (Node.renumber change.line) (mixin inner name arguments start)
      (mixin inner name arguments (start.renumber change.line)) := by
  refine .bind .peek fun token => ?_
  rw [Token.kind_renumber]
  split
  · exact .bind renumbers.block fun body => .bind (.place _) fun span => .pure rfl
  · exact .fail _ _

end Expression

theorem renumbers_expressionRule {layer : Bool → Grammar}
    (renumbers : ∀ inMixin, (layer inMixin).Renumbers change) (inMixin : Bool) (budget : Nat) :
    Parsing.Renumbers change (Node.renumber change.line)
      (expressionRule Hooks.none layer inMixin budget)
      (expressionRule Hooks.none layer inMixin budget) := by
  have inner := renumbers inMixin
  refine .bind .peek fun token => .bind (.place _) fun span => ?_
  rw [Token.kind_renumber]
  dsimp only
  split
  · exact .bind .advance fun _ => renumbers_namedTag inner _ _ _
  · exact renumbers_namedTag inner _ _ _
  · exact renumbers_namedTag inner _ _ _
  · exact .bind .advance fun _ => renumbers_mixin (renumbers true) _ _ _
  · refine .bind .advance fun _ => .bind .peek fun following => ?_
    rw [Token.kind_renumber]
    split
    · exact .bind inner.block fun body => .pure_bind (.pure rfl)
    · exact .pure_bind (.pure rfl)
  · refine .bind .advance fun _ => ?_
    split
    · exact .pure rfl
    · exact .fail _ _
  · exact .bind .advance fun _ => .bind .expectPath fun found =>
      .bind (.place _) fun start => .pure rfl
  · exact .bind .advance fun _ => renumbers_inclusion inner _ _
  · exact .bind .advance fun _ => .pure rfl
  · exact .bind .advance fun _ => renumbers_filter inner _ _ _
  · refine .bind .advance fun _ => .bind (renumbers_textBlockIfAny inner budget) fun body => ?_
    cases body with
    | none => exact .pure rfl
    | some body => exact .pure rfl
  · exact renumbers_text inner true budget
  · exact renumbers_text inner true budget
  · exact renumbers_text inner true budget
  · exact .bind (renumbers_html inner budget) fun nodes => .pure rfl
  · exact .bind .advance fun _ => .bind (renumbers_textBlockAt inner budget _) fun body =>
      .pure rfl
  · exact .bind .advance fun _ => renumbers_call inner _ _ _ _
  · exact .bind .advance fun _ => renumbers_variableTag inner _ _ _
  · exact .bind .advance fun _ => .pure rfl
  · exact renumbers_ask_bind (.bind .peek fun _ => .fail _ _)

end Grammar

/-! ### Documents -/

theorem renumbers_grammar (layers : Nat) (inMixin : Bool) :
    (grammar Hooks.none layers inMixin).Renumbers change := by
  induction layers generalizing inMixin with
  | zero => exact ⟨.exhausted, .exhausted, .exhausted⟩
  | succ layers ih =>
      exact {
        expression := Grammar.renumbers_expressionRule ih inMixin layers
        block := Grammar.renumbers_indentedBlock (ih inMixin) layers
        textBlock := Grammar.renumbers_textBlockIfAny (ih inMixin) layers }

theorem renumbers_documentNodes {inner : Grammar} (renumbers : inner.Renumbers change)
    (budget : Nat) (nodes : List Node) :
    Parsing.Renumbers change (Node.renumberAll change.line) (documentNodes inner budget nodes)
      (documentNodes inner budget (Node.renumberAll change.line nodes)) := by
  induction budget generalizing nodes with
  | zero => exact .exhausted
  | succ budget ih =>
      refine .bind .peek fun token => ?_
      rw [Token.kind_renumber]
      split
      · exact .pure rfl
      · exact .bind .advance fun _ => ih nodes
      · refine .bind (Grammar.renumbers_html renumbers budget) fun found => ?_
        have read := ih (nodes ++ found)
        rwa [Node.renumberAll_append] at read
      · refine .bind renumbers.expression fun node => ?_
        have read := ih (Grammar.splice nodes node)
        rwa [Grammar.renumberAll_splice] at read

theorem renumbers_documentRule (still : change.line 0 = 0) (budget : Nat) :
    Parsing.Renumbers change (Document.renumber change.line) (documentRule Hooks.none budget)
      (documentRule Hooks.none budget) := by
  refine .bind (renumbers_documentNodes (renumbers_grammar budget false) budget [])
    fun nodes => ?_
  intro stream other given
  refine ⟨?_, given⟩
  simp [Document.renumber, Span.renumber, given.file, still]

/-- From tokens with other line numbers the grammar makes the document with these line numbers, or
fails for the same reason at the same token. -/
theorem renumbers_parse (change : Renumbering) (still : change.line 0 = 0) (tokens : List Token)
    (file : Option String) :
    Parallel (fun _ _ => True)
      (fun document other => other = document.renumber change.line)
      (Diagnostic.Renumbered change) (parse tokens { file, source := change.source })
      (parse (tokens.map (Token.renumber change.line))
        { file, source := change.otherSource }) := by
  intro events events' _
  cases last : tokens.getLast? with
  | none =>
      obtain rfl : tokens = [] := List.getLast?_eq_none_iff.mp last
      rw [List.map_nil, parse_nil, parse_nil]
      refine ⟨?_, trivial⟩
      simp [Document.renumber, Span.renumber, still]
  | some token => ?_
  have ending : TokenStream.endingOf (tokens.map (Token.renumber change.line)) =
      (TokenStream.endingOf tokens).renumber change.line := by
    unfold TokenStream.endingOf
    rw [List.getLast?_map, last]
    rfl
  have start : TokenStream.Renumbered change
      { TokenStream.ofTokens file change.source tokens with events := events }
      { TokenStream.ofTokens file change.otherSource
          (tokens.map (Token.renumber change.line)) with events := events' } :=
    ⟨rfl, rfl, rfl, rfl, ending⟩
  have done := renumbers_documentRule still (parseBudget tokens.length) start
  unfold parse
  rw [List.length_map]
  dsimp only
  revert done
  cases documentRule Hooks.none (parseBudget tokens.length)
      { TokenStream.ofTokens file change.source tokens with events := events } <;>
    cases documentRule Hooks.none (parseBudget tokens.length)
      { TokenStream.ofTokens file change.otherSource
          (tokens.map (Token.renumber change.line)) with events := events' }
  · exact fun done => ⟨done.1, trivial⟩
  · exact False.elim
  · exact False.elim
  · rename_i stop after stop' after'
    rintro ⟨stops, given⟩
    cases stop <;> cases stop'
    · exact ⟨stops, trivial⟩
    · exact stops.elim
    · exact stops.elim
    · refine ⟨?_, trivial⟩
      rw [given.next]
      exact given.fault _ _

end Offside
