import Offside.Document.Source
import Offside.Proofs.Computation
import Offside.Proofs.Provenance.Places

/-!
# The places that the grammar gives to nodes

The grammar takes every span from a token, its faults included, and gives it the file of the
template where that is known. So what is known of the places of the tokens is known of those of the
document and of the faults. What was noted before makes no difference to either.
-/

namespace Offside

open Computing Parsing

/-- What is known of a template from the start: its file, its text, and where its spans may be. -/
structure Site where
  file : Option String
  source : Option String
  spans : Span → Prop

/-- The stream with notes in front of its own. -/
def TokenStream.logged (log : Array Event) (stream : TokenStream) : TokenStream :=
  { stream with events := log ++ stream.events }

namespace Site

variable (site : Site)

/-- A span of a token is one of the template. -/
def Owns (span : Span) : Prop :=
  site.spans { span with file := site.file <|> span.file }

/-- The stream is one of the template, and all its tokens stand in it. -/
structure Holds (stream : TokenStream) : Prop where
  file : stream.file = site.file
  source : stream.source = site.source
  pending : ∀ token ∈ stream.pending, site.Owns token.span
  ending : site.Owns stream.ending.span

/-- If there is a fault it stands in the template and comes with its text. -/
def Allows : ParseStop → Prop
  | .fault fault => site.spans fault.span ∧ fault.source = site.source
  | .exhausted => True

variable {site} {stream : TokenStream}

theorem Holds.next (held : site.Holds stream) : site.Owns stream.next.span := by
  cases pending : stream.pending with
  | nil => simpa [TokenStream.next, pending] using held.ending
  | cons token rest =>
      simpa [TokenStream.next, pending] using held.pending token (by simp [pending])

theorem Holds.place (held : site.Holds stream) {span : Span} (owned : site.Owns span) :
    site.spans (stream.place span) := by
  unfold TokenStream.place
  rw [held.file]
  exact owned

end Site

/-- From a stream of a template the computation gives a value with a property, or finds a fault in
the template; and it does the same whatever was noted before. -/
structure Parsing.ReadsFrom {α : Type} (site : Site) (action : Parsing α) (holds : α → Prop)
    (stream : TokenStream) : Prop where
  stays :
    match action stream with
    | .ok value after => holds value ∧ site.Holds after
    | .error stop after => site.Allows stop ∧ site.Holds after
  unlogged : ∀ log, Agree (TokenStream.logged log) action action stream

/-- This is so from every stream of the template. -/
def Parsing.Reads {α : Type} (site : Site) (action : Parsing α) (holds : α → Prop) : Prop :=
  ∀ stream, site.Holds stream → ReadsFrom site action holds stream

namespace Parsing.Reads

variable {α β : Type} {site : Site} {action : Parsing α} {next : α → Parsing β} {first : α → Prop}
  {holds : β → Prop}

theorem pure {value : β} (given : holds value) : Reads site (pure value) holds :=
  fun _ held => ⟨⟨given, held⟩, fun _ => rfl⟩

theorem exhausted : Reads site (throw .exhausted) holds :=
  fun _ held => ⟨⟨trivial, held⟩, fun _ => rfl⟩

theorem bind (before : Reads site action first)
    (after : ∀ value, first value → Reads site (next value) holds) :
    Reads site (action >>= next) holds := by
  intro stream held
  have done := (before stream held).stays
  have same := (before stream held).unlogged
  cases acted : action stream with
  | error stop middle =>
      refine ⟨?_, fun log => (same log).bind fun value middle given => ?_⟩
      · rw [bind_of_error acted]
        simpa only [acted] using done
      · rw [acted] at given
        cases given
  | ok value middle =>
      simp only [acted] at done
      have further := after value done.1 middle done.2
      refine ⟨?_, fun log => (same log).bind fun value middle given => ?_⟩
      · rw [bind_of_ok acted]
        exact further.stays
      · rw [acted] at given
        cases given
        exact further.unlogged log

theorem pure_bind {value : α} (given : Reads site (next value) holds) :
    Reads site (Pure.pure value >>= next) holds :=
  given

theorem peek : Reads site peek fun token => site.Owns token.span :=
  fun _ held => ⟨⟨held.next, held⟩, fun _ => rfl⟩

theorem advance : Reads site advance fun token => site.Owns token.span := by
  intro stream held
  have kept : ∀ token ∈ stream.pending.tail, site.Owns token.span :=
    fun token found => held.pending token (List.mem_of_mem_tail found)
  exact ⟨⟨held.next, held.file, held.source, kept, held.ending⟩, fun _ => rfl⟩

theorem place {span : Span} (owned : site.Owns span) : Reads site (place span) site.spans :=
  fun _ held => ⟨⟨held.place owned, held⟩, fun _ => rfl⟩

theorem fail {span : Span} {cause : ParseFault} (owned : site.Owns span) :
    Reads site (Parsing.fail span cause) holds :=
  fun _ held => ⟨⟨⟨held.place owned, held.source⟩, held⟩, fun _ => rfl⟩

theorem fail_bind {span : Span} {cause : ParseFault} (owned : site.Owns span) :
    Reads site (Parsing.fail span cause >>= next) holds :=
  bind (fail owned) fun _ => False.elim

/-- A note changes nothing but the notes. -/
theorem note {event : TokenStream → Event}
    (unlogged : ∀ log stream, event (stream.logged log) = event stream) :
    Reads site (modify fun stream => { stream with events := stream.events.push (event stream) })
      fun _ => True := by
  refine fun stream held => ⟨⟨trivial, held.file, held.source, held.pending, held.ending⟩, ?_⟩
  intro log
  have later : (log ++ stream.events).push (event (stream.logged log)) =
      log ++ stream.events.push (event stream) := by
    rw [unlogged, Array.append_push]
  exact congrArg (fun events => EStateM.Result.ok () { stream with events := events }) later

theorem expect (name : String) : Reads site (expect name) fun token => site.Owns token.span := by
  refine .bind .peek fun token owned => ?_
  split
  · exact .advance
  · exact .fail owned

theorem expectPath : Reads site expectPath fun found => site.Owns found.1.span := by
  refine .bind .peek fun token owned => ?_
  split
  · exact .bind .advance fun _ _ => .pure owned
  · exact .fail owned

theorem textNode {token : Token} (owned : site.Owns token.span) (value : String) :
    Reads site (textNode token value) (Node.Placed site.spans) :=
  .bind (.place owned) fun _ placed => .pure (Node.placed_leaf_of_plain placed rfl)

end Parsing.Reads

/-- The tag that is being put together stands in the template with all its parts. -/
structure TagParts.Placed (spans : Span → Prop) (parts : TagParts) : Prop where
  span : spans parts.span
  body : parts.body.Placed spans
  attributes : ∀ entry ∈ parts.attributes, spans entry.span

theorem TagParts.placed_start {spans : Span → Prop} {span : Span} (placed : spans span) :
    (TagParts.start span).Placed spans :=
  ⟨placed, ⟨placed, Node.every_nil⟩, by simp [TagParts.start]⟩

namespace Grammar

/-- A grammar that takes the places of all that it reads from the template. -/
structure ReadsAt (grammar : Grammar) (site : Site) : Prop where
  expression : Reads site grammar.expression (Node.Placed site.spans)
  block : Reads site grammar.block (Document.Placed site.spans)
  textBlock : Reads site grammar.textBlock fun block => ∀ found ∈ block, found.Placed site.spans

/-- Lines that are copied to the page stand in the template, and so does the open text. -/
structure HtmlRun.Placed (spans : Span → Prop) (run : HtmlRun) : Prop where
  nodes : Node.Every (Node.Placed spans) run.nodes
  pending : ∀ found ∈ run.pending, spans found.1

section

variable {spans : Span → Prop}

theorem every_placed_splice {nodes : List Node} {node : Node}
    (before : Node.Every (Node.Placed spans) nodes) (last : node.Placed spans) :
    Node.Every (Node.Placed spans) (splice nodes node) := by
  unfold splice
  split
  · exact Node.every_append.mpr ⟨before, (Node.placed_branch.mp last).2.2⟩
  · exact before.concat last

theorem HtmlRun.Placed.close {run : HtmlRun} (placed : run.Placed spans) :
    Node.Every (Node.Placed spans) run.close := by
  unfold HtmlRun.close
  split
  · rename_i span value pending
    have start : spans span := placed.pending _ pending
    exact placed.nodes.concat (Node.placed_leaf_of_plain start rfl)
  · exact placed.nodes

theorem HtmlRun.Placed.line {run : HtmlRun} (placed : run.Placed spans) {span : Span}
    (owned : spans span) (value : String) : (run.line span value).Placed spans := by
  unfold HtmlRun.line
  split
  · rename_i start text pending
    have opened : spans start := placed.pending _ pending
    exact ⟨placed.nodes, by simpa using opened⟩
  · exact ⟨placed.nodes, by simpa using owned⟩

theorem HtmlRun.Placed.add {run : HtmlRun} {node : Node} (placed : run.Placed spans)
    (found : node.Placed spans) : (run.add node).Placed spans := by
  unfold HtmlRun.add
  split
  · exact placed.line found.span _
  · exact ⟨placed.close.concat found, by simp⟩

theorem HtmlRun.Placed.foldl_add {nodes : List Node} (found : Node.Every (Node.Placed spans) nodes)
    {run : HtmlRun} (placed : run.Placed spans) : (nodes.foldl HtmlRun.add run).Placed spans := by
  induction nodes generalizing run with
  | nil => exact placed
  | cons node rest ih =>
      rw [Node.every_cons] at found
      exact ih found.2 (placed.add found.1)

end

section

variable {site : Site}

/-- Without hooks nothing is done about a token that the grammar does not know. -/
theorem reads_ask_bind {α : Type} {grammar : Grammar} {context : HookContext}
    {target : context.Target} {next : HookOutcome × context.Target → Parsing α} {holds : α → Prop}
    (declined : Reads site (next (.declined, target)) holds) :
    Reads site (Hooks.none.ask grammar context target >>= next) holds :=
  fun stream held => ⟨(declined stream held).stays, (declined stream held).unlogged⟩

theorem reads_code {span : Span} {expression : String} {buffered escaped : Bool}
    (placed : site.spans span) :
    (Node.leaf span (.code expression buffered escaped true)).Placed site.spans :=
  Node.placed_leaf_of_plain placed rfl

theorem reads_attributeTokens (budget : Nat) (names : Option (List String))
    {found : List Attribute} (before : ∀ entry ∈ found, site.spans entry.span) :
    Reads site (attributeTokens budget names found)
      fun read => ∀ entry ∈ read.2, site.spans entry.span := by
  induction budget generalizing names found with
  | zero => exact .exhausted
  | succ budget ih =>
      refine .bind .peek fun token owned => ?_
      split
      · refine .bind .advance fun _ _ => .bind (.place owned) fun span placed => ?_
        have further (names : Option (List String)) (name : String) (value : AttributeValue) :
            Reads site (attributeTokens budget names (found ++ [⟨span, name, value, true⟩]))
              fun read => ∀ entry ∈ read.2, site.spans entry.span :=
          ih names (by simpa [or_imp, forall_and] using ⟨before, placed⟩)
        dsimp only
        split
        · split
          · exact .pure_bind (further _ _ _)
          · split
            · exact .fail_bind owned
            · exact .pure_bind (further _ _ _)
        · exact .pure_bind (further _ _ _)
      · exact .bind (.expect _) fun _ _ => .pure before

theorem reads_attributes (budget : Nat) (names : Option (List String)) :
    Reads site (attributes budget names)
      fun read => ∀ entry ∈ read.2, site.spans entry.span :=
  .bind (.expect _) fun _ _ => reads_attributeTokens budget names (by simp)

theorem reads_attributesIfAny (budget : Nat) :
    Reads site (attributesIfAny budget)
      fun found => ∀ entry ∈ found, site.spans entry.span := by
  refine .bind .peek fun token _ => ?_
  split
  · exact .bind (reads_attributes budget none) fun _ found => .pure found
  · exact .pure (by simp)

section Text

variable {inner : Grammar} (reads : inner.ReadsAt site)

include reads

theorem reads_interpolated : Reads site (interpolated inner) (Node.Placed site.spans) :=
  .bind .advance fun _ _ => .bind reads.expression fun _ found =>
    .bind (.expect _) fun _ _ => .pure found

theorem reads_textNodes (blockMode : Bool) (budget : Nat) {nodes : List Node}
    (before : Node.Every (Node.Placed site.spans) nodes) :
    Reads site (textNodes Hooks.none inner blockMode budget nodes)
      (Node.Every (Node.Placed site.spans)) := by
  induction budget generalizing nodes with
  | zero => exact .exhausted
  | succ budget ih =>
      refine .bind .peek fun token owned => ?_
      split
      · exact .bind .advance fun _ _ => .bind (.textNode owned _) fun node found =>
          ih (before.concat found)
      · exact .bind .advance fun _ _ => .bind (.place owned) fun span placed =>
          ih (before.concat (reads_code placed))
      · split
        · refine .bind .advance fun _ _ => .bind .peek fun following _ => ?_
          split
          · exact .bind (.textNode owned _) fun node found => ih (before.concat found)
          · exact .bind (.textNode owned _) fun node found => ih (before.concat found)
          · exact ih before
        · exact .pure before
      · exact .bind (reads_interpolated reads) fun node found => ih (before.concat found)
      · exact reads_ask_bind (.pure before)

theorem reads_text (blockMode : Bool) (budget : Nat) :
    Reads site (text Hooks.none inner blockMode budget) (Node.Placed site.spans) := by
  refine .bind .peek fun token owned => .bind (.place owned) fun span placed => ?_
  refine .bind (reads_textNodes reads blockMode budget Node.every_nil) fun nodes found => ?_
  split
  · exact .pure (Node.every_cons.mp found).1
  · exact .pure (Node.placed_branch.mpr ⟨placed, by simp, found⟩)

theorem reads_htmlRun (budget : Nat) {run : HtmlRun} (before : run.Placed site.spans) :
    Reads site (htmlRun inner budget run) (Node.Every (Node.Placed site.spans)) := by
  induction budget generalizing run with
  | zero => exact .exhausted
  | succ budget ih =>
      refine .bind .peek fun token owned => ?_
      split
      · exact .bind .advance fun _ _ => .bind (.place owned) fun span placed =>
          ih (before.line placed _)
      · exact .bind reads.block fun block found => ih (before.foldl_add found.nodes)
      · exact .bind .advance fun _ _ => ih before
      · exact .pure before.close

theorem reads_html (budget : Nat) :
    Reads site (html inner budget) (Node.Every (Node.Placed site.spans)) :=
  reads_htmlRun reads budget ⟨Node.every_nil, by simp⟩

theorem reads_textBlockNodes (budget : Nat) {block : Document}
    (before : block.Placed site.spans) :
    Reads site (textBlockNodes Hooks.none inner budget block) (Document.Placed site.spans) := by
  induction budget generalizing block with
  | zero => exact .exhausted
  | succ budget ih =>
      have further {node : Node} (found : node.Placed site.spans) :
          Reads site (textBlockNodes Hooks.none inner budget
            { block with nodes := block.nodes ++ [node] }) (Document.Placed site.spans) :=
        ih ⟨before.root, before.nodes.concat found⟩
      refine .bind .peek fun token owned => ?_
      split
      · exact .bind .advance fun _ _ => .pure before
      · exact .bind .advance fun _ _ => .bind (.textNode owned _) fun node found => further found
      · exact .bind .advance fun _ _ => .bind (.textNode owned _) fun node found => further found
      · exact .bind (reads_interpolated reads) fun node found => further found
      · exact .bind .advance fun _ _ => .bind (.place owned) fun span placed =>
          further (reads_code placed)
      · exact .fail owned
      · exact reads_ask_bind (.bind .peek fun token owned => .fail owned)

theorem reads_textBlockIfAny (budget : Nat) :
    Reads site (textBlockIfAny Hooks.none inner budget)
      fun block => ∀ found ∈ block, found.Placed site.spans := by
  refine .bind .peek fun token owned => ?_
  split
  · refine .bind .advance fun _ _ => .bind (.place owned) fun span placed => ?_
    refine .bind (reads_textBlockNodes reads budget ⟨placed, Node.every_nil⟩) fun block found => ?_
    exact .pure (by simpa using found)
  · exact .pure (by simp)

theorem reads_textBlockAt (budget : Nat) {span : Span} (placed : site.spans span) :
    Reads site (textBlockAt Hooks.none inner budget span) (Document.Placed site.spans) := by
  refine .bind (reads_textBlockIfAny reads budget) fun block found => .pure ?_
  cases block with
  | none => exact ⟨placed, Node.every_nil⟩
  | some block => exact found block rfl

end Text

section Tag

variable {inner : Grammar}

theorem placed_concat {parts : TagParts} (placed : parts.Placed site.spans)
    {span : Span} (last : site.spans span) (names : List String) (name value : String) :
    TagParts.Placed site.spans { parts with
      names := names
      attributes := parts.attributes ++ [⟨span, name, .text value, false⟩] } :=
  ⟨placed.span, placed.body, by simpa [or_imp, forall_and] using ⟨placed.attributes, last⟩⟩

theorem reads_tagAttributes (budget : Nat) (seenList : Bool) {parts : TagParts}
    (before : parts.Placed site.spans) :
    Reads site (tagAttributes Hooks.none inner budget seenList parts)
      (TagParts.Placed site.spans) := by
  induction budget generalizing seenList parts with
  | zero => exact .exhausted
  | succ budget ih =>
      refine .bind .peek fun token owned => ?_
      split
      · refine .bind .advance fun _ _ => ?_
        split
        · exact .fail_bind owned
        · exact .pure_bind (.bind (.place owned) fun span placed =>
            ih seenList (placed_concat before placed _ _ _))
      · exact .bind .advance fun _ _ => .bind (.place owned) fun span placed =>
          ih seenList (placed_concat before placed _ _ _)
      · have added {read : Option (List String) × List Attribute}
            (found : ∀ entry ∈ read.2, site.spans entry.span) :
            Reads site (tagAttributes Hooks.none inner budget true { parts with
              names := read.1.getD parts.names
              attributes := parts.attributes ++ read.2 }) (TagParts.Placed site.spans) :=
          ih true
            ⟨before.span, before.body, List.forall_mem_append.mpr ⟨before.attributes, found⟩⟩
        split
        · exact .bind (.note fun _ _ => rfl) fun _ _ =>
            .bind (reads_attributes budget _) fun _ found => added found
        · exact .pure_bind (.bind (reads_attributes budget _) fun _ found => added found)
      · exact reads_ask_bind (.pure before)

theorem reads_skipNewlines (budget : Nat) : Reads site (skipNewlines budget) fun _ => True := by
  induction budget with
  | zero => exact .exhausted
  | succ budget ih =>
      refine .bind .peek fun token _ => ?_
      split
      · exact .bind .advance fun _ _ => ih
      · exact .pure trivial

variable (reads : inner.ReadsAt site)

include reads

theorem reads_tagContent (budget : Nat) (selfClosingAllowed : Bool) {parts : TagParts}
    (before : parts.Placed site.spans) :
    Reads site (tagContent Hooks.none inner budget selfClosingAllowed parts)
      (TagParts.Placed site.spans) := by
  have content {node : Node} (found : node.Placed site.spans) :
      Reads site (return { parts with body :=
        { parts.body with nodes := splice parts.body.nodes node } })
        (TagParts.Placed site.spans) :=
    .pure ⟨before.span, ⟨before.body.root, every_placed_splice before.body.nodes found⟩,
      before.attributes⟩
  refine .bind .peek fun token _ => ?_
  split
  · exact .bind (reads_text reads false budget) fun _ found => content found
  · exact .bind (reads_text reads false budget) fun _ found => content found
  · refine .bind .advance fun _ _ => .bind reads.expression fun node found => ?_
    split
    · rcases Node.placed_branch.mp found with ⟨placed, -, nodes⟩
      exact .pure ⟨before.span, ⟨placed, nodes⟩, before.attributes⟩
    · exact .pure ⟨before.span, ⟨before.span, .single found⟩, before.attributes⟩
  · exact .pure before
  · exact .pure before
  · exact .pure before
  · exact .pure before
  · exact .pure before
  · exact .pure before
  · split
    · exact .bind .advance fun _ _ => .pure ⟨before.span, before.body, before.attributes⟩
    · exact reads_ask_bind (.bind .peek fun _ owned => .fail owned)
  · exact reads_ask_bind (.bind .peek fun _ owned => .fail owned)

theorem reads_tag (budget : Nat) (selfClosingAllowed : Bool) {span : Span}
    (placed : site.spans span) :
    Reads site (tag Hooks.none inner budget selfClosingAllowed span)
      (TagParts.Placed site.spans) := by
  refine .bind (reads_tagAttributes budget false (TagParts.placed_start placed)) fun parts before =>
    .bind .peek fun token _ => ?_
  dsimp only
  split
  case' h_1 =>
    refine .bind .advance fun _ _ => .pure_bind ?_
    have dotted : TagParts.Placed site.spans { parts with textOnly := true } :=
      ⟨before.span, before.body, before.attributes⟩
    refine .bind (reads_tagContent reads budget selfClosingAllowed dotted) fun parts before => ?_
  case' h_2 =>
    refine .pure_bind ?_
    refine .bind (reads_tagContent reads budget selfClosingAllowed before) fun parts before => ?_
  all_goals
    refine .bind (reads_skipNewlines budget) fun _ _ => ?_
    split
    · exact .bind (reads_textBlockAt reads budget before.span) fun block found =>
        .pure ⟨before.span, found, before.attributes⟩
    · refine .bind .peek fun token _ => ?_
      split
      · exact .bind reads.block fun block found => .pure
          ⟨before.span, ⟨before.body.root, Node.every_append.mpr ⟨before.body.nodes, found.nodes⟩⟩,
            before.attributes⟩
      · exact .pure before

theorem reads_namedTag (budget : Nat) (name : String) {span : Span} (placed : site.spans span) :
    Reads site (namedTag Hooks.none inner budget name span) (Node.Placed site.spans) :=
  .bind (reads_tag reads budget true placed) fun _ found => .pure (Node.placed_branch.mpr
    ⟨placed, by simpa [Label.places, Label.body?, Label.attributes] using
      ⟨found.body.root, found.attributes⟩, found.body.nodes⟩)

theorem reads_variableTag (budget : Nat) (expression : String) {span : Span}
    (placed : site.spans span) :
    Reads site (variableTag Hooks.none inner budget expression span) (Node.Placed site.spans) :=
  .bind (reads_tag reads budget true placed) fun _ found => .pure (Node.placed_branch.mpr
    ⟨placed, by simpa [Label.places, Label.body?, Label.attributes] using
      ⟨found.body.root, found.attributes⟩, found.body.nodes⟩)

theorem reads_call (budget : Nat) (name : String) (arguments : Option String) {span : Span}
    (placed : site.spans span) :
    Reads site (call Hooks.none inner budget name arguments span) (Node.Placed site.spans) := by
  refine .bind (reads_tag reads budget false placed) fun parts found => ?_
  dsimp only
  split
  · exact .pure (Node.placed_leaf.mpr
      ⟨placed, by simpa [Leaf.places, Leaf.attributes] using found.attributes⟩)
  · exact .pure (Node.placed_branch.mpr
      ⟨placed, by simpa [Label.places, Label.body?, Label.attributes] using
        ⟨found.body.root, found.attributes⟩, found.body.nodes⟩)

end Tag

section Expression

variable {inner : Grammar} (reads : inner.ReadsAt site)

theorem reads_includeFilters (budget : Nat) {found : List IncludeFilter}
    (before : ∀ place ∈ (FileUse.raw found).places, site.spans place) :
    Reads site (includeFilters budget found)
      fun read => ∀ place ∈ (FileUse.raw read).places, site.spans place := by
  induction budget generalizing found with
  | zero => exact .exhausted
  | succ budget ih =>
      refine .bind .peek fun token owned => ?_
      split
      · refine .bind .advance fun _ _ => .bind (reads_attributesIfAny budget) fun entries inside =>
          .bind (.place owned) fun span placed => ih ?_
        rw [FileUse.places, List.flatMap_append, List.forall_mem_append]
        exact ⟨before, by simpa [IncludeFilter.places] using ⟨placed, inside⟩⟩
      · exact .pure before

include reads

theorem reads_blockNodes (budget : Nat) {block : Document} (before : block.Placed site.spans) :
    Reads site (blockNodes inner budget block) (Document.Placed site.spans) := by
  induction budget generalizing block with
  | zero => exact .exhausted
  | succ budget ih =>
      refine .bind .peek fun token _ => ?_
      split
      · exact .bind .advance fun _ _ => .pure before
      · exact .bind .advance fun _ _ => ih before
      · exact .bind (reads_html reads budget) fun nodes found =>
          ih ⟨before.root, Node.every_append.mpr ⟨before.nodes, found⟩⟩
      · exact .bind reads.expression fun node found =>
          ih ⟨before.root, every_placed_splice before.nodes found⟩

theorem reads_indentedBlock (budget : Nat) :
    Reads site (indentedBlock inner budget) (Document.Placed site.spans) :=
  .bind (.expect _) fun _ owned => .bind (.place owned) fun _ placed =>
    reads_blockNodes reads budget ⟨placed, Node.every_nil⟩

theorem reads_filter (budget : Nat) (name : String) {span : Span} (placed : site.spans span) :
    Reads site (filter Hooks.none inner budget name span) (Node.Placed site.spans) := by
  induction budget generalizing name span with
  | zero => exact .exhausted
  | succ budget ih =>
      refine .bind (reads_attributesIfAny budget) fun entries inside => ?_
      have made {body : Document} (found : body.Placed site.spans) :
          (Node.branch span (.filter name entries body.span) body.nodes).Placed site.spans :=
        Node.placed_branch.mpr
          ⟨placed, by simpa [Label.places, Label.body?, Label.attributes] using
            ⟨found.root, inside⟩, found.nodes⟩
      refine .bind .peek fun token owned => ?_
      dsimp only
      split
      · exact .bind .advance fun _ _ => .bind (.place owned) fun start placed =>
          .bind (.textNode owned _) fun node found =>
            .pure_bind (.pure (made ⟨placed, .single found⟩))
      · exact .bind .advance fun _ _ => .bind (.place owned) fun start started =>
          .bind (ih _ started) fun node found =>
            .pure_bind (.pure (made ⟨placed, .single found⟩))
      · exact .bind (reads_textBlockAt reads budget placed) fun body found => .pure (made found)

theorem reads_inclusion (budget : Nat) {span : Span} (placed : site.spans span) :
    Reads site (inclusion inner budget span) (Node.Placed site.spans) := by
  have noFilters : ∀ place ∈ (FileUse.raw []).places, site.spans place := by simp [FileUse.places]
  refine .bind (reads_includeFilters budget noFilters) fun filters inside => ?_
  refine .bind .expectPath fun found pathOwned => .bind (.place pathOwned) fun start started => ?_
  refine .bind .peek fun token owned => ?_
  dsimp only
  split
  · have made {body : Document} (found : body.Placed site.spans) {reference : Reference}
        (known : site.spans reference.span) :
        (Node.file span (.inclusion body.span) reference [] body.nodes).Placed site.spans :=
      Node.placed_file.mpr ⟨placed, known, by simpa [FileUse.places] using found.root,
        Node.every_nil, found.nodes⟩
    split
    · exact .bind reads.block fun body found => .pure (made found started)
    · exact .pure_bind (.pure (made ⟨placed, Node.every_nil⟩ started))
  · split
    · exact .fail owned
    · exact .pure (Node.placed_file.mpr
        ⟨placed, started, inside, Node.every_nil, Node.every_nil⟩)

theorem reads_mixin (name : String) (arguments : Option String) {start : Span}
    (owned : site.Owns start) :
    Reads site (mixin inner name arguments start) (Node.Placed site.spans) := by
  refine .bind .peek fun token _ => ?_
  split
  · exact .bind reads.block fun body found => .bind (.place owned) fun span placed =>
      .pure (Node.placed_branch.mpr
        ⟨placed, by simpa [Label.places, Label.body?, Label.attributes] using found.root,
          found.nodes⟩)
  · exact .fail owned

end Expression

theorem reads_expressionRule {layer : Bool → Grammar}
    (reads : ∀ inMixin, (layer inMixin).ReadsAt site) (inMixin : Bool) (budget : Nat) :
    Reads site (expressionRule Hooks.none layer inMixin budget) (Node.Placed site.spans) := by
  have inner := reads inMixin
  refine .bind .peek fun token owned => .bind (.place owned) fun span placed => ?_
  have branch {label : Label} {nodes : List Node}
      (inside : ∀ place ∈ label.places, site.spans place)
      (found : Node.Every (Node.Placed site.spans) nodes) :
      (Node.branch span label nodes).Placed site.spans :=
    Node.placed_branch.mpr ⟨placed, inside, found⟩
  dsimp only
  split
  · exact .bind .advance fun _ _ => reads_namedTag inner _ _ placed
  · exact reads_namedTag inner _ _ placed
  · exact reads_namedTag inner _ _ placed
  · exact .bind .advance fun _ _ => reads_mixin (reads true) _ _ owned
  · refine .bind .advance fun _ _ => .bind .peek fun following _ => ?_
    split
    · exact .bind inner.block fun body found => .pure_bind (.pure (branch (by simp) found.nodes))
    · exact .pure_bind (.pure (branch (by simp) Node.every_nil))
  · refine .bind .advance fun _ _ => ?_
    split
    · exact .pure (Node.placed_leaf_of_plain placed rfl)
    · exact .fail owned
  · exact .bind .advance fun _ _ => .bind .expectPath fun found pathOwned =>
      .bind (.place pathOwned) fun start started => .pure (Node.placed_file.mpr
        ⟨placed, started, by simp [FileUse.places], Node.every_nil, Node.every_nil⟩)
  · exact .bind .advance fun _ _ => reads_inclusion inner _ placed
  · exact .bind .advance fun _ _ => .pure (Node.placed_leaf_of_plain placed rfl)
  · exact .bind .advance fun _ _ => reads_filter inner _ _ placed
  · refine .bind .advance fun _ _ =>
      .bind (reads_textBlockIfAny inner budget) fun body found => ?_
    split
    · rename_i body
      have block := found body rfl
      exact .pure (branch
        (by simpa [Label.places, Label.body?, Label.attributes] using block.root) block.nodes)
    · exact .pure (Node.placed_leaf_of_plain placed rfl)
  · exact reads_text inner true budget
  · exact reads_text inner true budget
  · exact reads_text inner true budget
  · exact .bind (reads_html inner budget) fun nodes found => .pure (branch (by simp) found)
  · exact .bind .advance fun _ _ => .bind (reads_textBlockAt inner budget placed)
      fun body found => .pure (Node.placed_branch.mpr ⟨found.root, by simp, found.nodes⟩)
  · exact .bind .advance fun _ _ => reads_call inner _ _ _ placed
  · exact .bind .advance fun _ _ => reads_variableTag inner _ _ placed
  · exact .bind .advance fun _ _ => .pure (Node.placed_leaf_of_plain placed rfl)
  · exact reads_ask_bind (.bind .peek fun _ owned => .fail owned)

end

end Grammar

section

variable {site : Site}

/-- Each layer takes all places from the template, as the one below it does. -/
theorem readsAt_grammar (layers : Nat) (inMixin : Bool) :
    (grammar Hooks.none layers inMixin).ReadsAt site := by
  induction layers generalizing inMixin with
  | zero => exact ⟨.exhausted, .exhausted, .exhausted⟩
  | succ layers ih =>
      exact {
        expression := Grammar.reads_expressionRule ih inMixin layers
        block := Grammar.reads_indentedBlock (ih inMixin) layers
        textBlock := Grammar.reads_textBlockIfAny (ih inMixin) layers }

theorem reads_documentNodes {inner : Grammar} (reads : inner.ReadsAt site) (budget : Nat)
    {nodes : List Node} (before : Node.Every (Node.Placed site.spans) nodes) :
    Reads site (documentNodes inner budget nodes) (Node.Every (Node.Placed site.spans)) := by
  induction budget generalizing nodes with
  | zero => exact .exhausted
  | succ budget ih =>
      refine .bind .peek fun token _ => ?_
      split
      · exact .pure before
      · exact .bind .advance fun _ _ => ih before
      · exact .bind (Grammar.reads_html reads budget) fun found each =>
          ih (Node.every_append.mpr ⟨before, each⟩)
      · exact .bind reads.expression fun node found => ih (Grammar.every_placed_splice before found)

theorem reads_documentRule (budget : Nat) :
    Reads site (documentRule Hooks.none budget) fun document =>
      document.span = ⟨site.file, 0, 0⟩ ∧ Node.Every (Node.Placed site.spans) document.nodes := by
  refine .bind (reads_documentNodes (readsAt_grammar budget false) budget Node.every_nil)
    fun nodes found stream held => ⟨⟨⟨?_, found⟩, held⟩, fun _ => rfl⟩
  rw [← held.file]

theorem Site.holds_ofTokens {tokens : List Token} (owned : ∀ token ∈ tokens, site.Owns token.span)
    (ending : site.Owns (TokenStream.endingOf tokens).span) (events : Array Event) :
    site.Holds { TokenStream.ofTokens site.file site.source tokens with events := events } :=
  ⟨rfl, rfl, owned, ending⟩

end

theorem parse_nil (file source : Option String) (events : Array Event) :
    parse [] { file, source } events =
      .ok ⟨⟨file, 0, 0⟩, []⟩ (events.push (.parsed 0 file)) := rfl

/-- The places of a document are those of its tokens. A fault stands at a token, and comes with the
text that was given. -/
theorem placed_parse (site : Site) {tokens : List Token}
    (owned : ∀ token ∈ tokens, site.Owns token.span)
    (ending : site.Owns (TokenStream.endingOf tokens).span) :
    Satisfies (parse tokens { file := site.file, source := site.source })
      (fun document => document.span = ⟨site.file, 0, 0⟩ ∧
        Node.Every (Node.Placed site.spans) document.nodes)
      fun fault => site.spans fault.span ∧ fault.source = site.source := by
  intro events
  have read := (reads_documentRule (parseBudget tokens.length) _
    (Site.holds_ofTokens owned ending events)).stays
  dsimp only [parse]
  revert read
  cases documentRule Hooks.none (parseBudget tokens.length)
      { TokenStream.ofTokens site.file site.source tokens with events := events } with
  | ok document after => exact And.left
  | error stop after =>
      rintro ⟨allowed, held⟩
      cases stop with
      | fault fault => exact allowed
      | exhausted => exact ⟨held.place held.next, held.source⟩

/-- What was noted before makes no difference to what tokens are read as. -/
theorem commutes_parse (tokens : List Token) (file source : Option String) (log : Array Event) :
    Commutes (log ++ ·) (parse tokens { file, source }) := by
  intro events
  let site : Site := ⟨file, source, fun _ => True⟩
  have tokensOwned : ∀ token ∈ tokens, site.Owns token.span := fun _ _ => trivial
  have same := (reads_documentRule (parseBudget tokens.length) _
    (site.holds_ofTokens tokensOwned trivial events)).unlogged log
  unfold Agree at same ⊢
  dsimp only [parse]
  rw [TokenStream.logged] at same
  rw [same]
  cases documentRule Hooks.none (parseBudget tokens.length)
      { TokenStream.ofTokens file source tokens with events := events } with
  | ok document after =>
      exact congrArg (EStateM.Result.ok document) Array.append_push.symm
  | error stop after => cases stop <;> rfl

end Offside
