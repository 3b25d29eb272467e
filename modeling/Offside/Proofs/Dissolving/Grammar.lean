import Offside.Proofs.Conservation.Document
import Offside.Proofs.Dissolving.Reading

/-!
# The grammar dissolves blocks without a name

One lemma for each rule of the grammar: in what it gives there is no block without a name. An
expression may be such a block itself; then the rule that asked for it adds the nodes of the block.

So where a single node stands in every interpolation, a document has no block without a name at any
depth. The nodes of such blocks are in the document all the same, in the order of their tokens.
-/

namespace Offside

open Computing Parsing TokenStream Node

variable {tokens : List Token} {file : Option String} {stream : TokenStream}

namespace Grammar

/-- A grammar that dissolves blocks without a name. -/
structure FlattensOn (tokens : List Token) (file : Option String) (grammar : Grammar) : Prop where
  expression : ∀ stream, Flattens tokens file stream grammar.expression stream.Gives
  block : ∀ stream, Flattens tokens file stream grammar.block fun block => Every Flat block.nodes

/-- Without hooks nothing is done about a token that the grammar does not know. -/
theorem flattens_ask_bind {α : Type} {grammar : Grammar} {context : HookContext}
    {target : context.Target} {next : HookOutcome × context.Target → Parsing α} {holds : α → Prop}
    (declined : Flattens tokens file stream (next (.declined, target)) holds) :
    Flattens tokens file stream (Hooks.none.ask grammar context target >>= next) holds :=
  declined

theorem flattens_textNode_bind {α : Type} {token : Token} {value : String}
    {next : Node → Parsing α} {holds : α → Prop}
    (each : ∀ span, Flattens tokens file stream (next (.leaf span (.text value false))) holds) :
    Flattens tokens file stream (textNode token value >>= next) holds :=
  each (stream.place token.span)

section

variable {inner : Grammar} (flattens : inner.FlattensOn tokens file)
  (single : InterpolationsSingle (tokens.map Token.kind))

include flattens single

/-! ### Texts -/

/-- An interpolation is a single node, so that it is none that would have to be dissolved. -/
theorem flattens_interpolated (opens : stream.next.kind = .startInterpolation) :
    Flattens tokens file stream (interpolated inner) Flat := by
  intro reads
  have begins := reads.beginsSingle single opens
  refine Flattens.advance (.bind (flattens.expression _) fun node middle gives => ?_) reads
  refine .after (.expect _) fun _ _ => .pure (flat_iff.mpr ⟨gives.single begins, gives.below⟩)

theorem flattens_textNodes (blockMode : Bool) (budget : Nat) {nodes : List Node}
    (before : Every Flat nodes) :
    Flattens tokens file stream (textNodes Hooks.none inner blockMode budget nodes)
      (Every Flat) := by
  induction budget generalizing nodes stream with
  | zero => exact .throw
  | succ budget ih =>
      apply Flattens.peek
      split
      · exact .after .advance fun _ _ => flattens_textNode_bind fun _ =>
          ih (before.concat flat_leaf)
      · exact .after .advance fun _ _ => .place fun _ => ih (before.concat flat_leaf)
      · split
        · refine .after .advance fun _ _ => .peek ?_
          split
          · exact flattens_textNode_bind fun _ => ih (before.concat flat_leaf)
          · exact flattens_textNode_bind fun _ => ih (before.concat flat_leaf)
          · exact ih before
        · exact .pure before
      · rename_i kind
        exact .bind (flattens_interpolated flattens single kind) fun node _ found =>
          ih (before.concat found)
      · exact flattens_ask_bind (.pure before)

theorem flattens_text (blockMode : Bool) (budget : Nat) :
    Flattens tokens file stream (text Hooks.none inner blockMode budget) FlatBelow := by
  refine .peek (.place fun span => ?_)
  apply Flattens.bind (flattens_textNodes flattens single blockMode budget every_nil)
  intro nodes _ found
  split
  · exact .pure (flat_iff.mp (every_cons.mp found).1).2
  · exact .pure found

omit single in
theorem flattens_htmlRun (budget : Nat) {run : HtmlRun} (before : Every Flat run.nodes) :
    Flattens tokens file stream (htmlRun inner budget run) (Every Flat) := by
  have copied {span : Span} {value : String} : (Node.leaf span (.text value true)).Flat := flat_leaf
  induction budget generalizing run stream with
  | zero => exact .throw
  | succ budget ih =>
      apply Flattens.peek
      split
      · exact .after .advance fun _ _ => .place fun span => ih (every_line before span _)
      · exact .bind (flattens.block _) fun block _ found => ih (every_foldl_add copied found before)
      · exact .after .advance fun _ _ => ih before
      · exact .pure (every_close copied before)

omit single in
theorem flattens_html (budget : Nat) :
    Flattens tokens file stream (html inner budget) (Every Flat) :=
  flattens_htmlRun flattens budget every_nil

theorem flattens_textBlockNodes (budget : Nat) {block : Document}
    (before : Every Flat block.nodes) :
    Flattens tokens file stream (textBlockNodes Hooks.none inner budget block)
      fun block => Every Flat block.nodes := by
  induction budget generalizing block stream with
  | zero => exact .throw
  | succ budget ih =>
      apply Flattens.peek
      split
      · exact .after .advance fun _ _ => .pure before
      · exact .after .advance fun _ _ => flattens_textNode_bind fun _ =>
          ih (before.concat flat_leaf)
      · exact .after .advance fun _ _ => flattens_textNode_bind fun _ =>
          ih (before.concat flat_leaf)
      · rename_i kind
        exact .bind (flattens_interpolated flattens single kind) fun node _ found =>
          ih (before.concat found)
      · exact .after .advance fun _ _ => .place fun _ => ih (before.concat flat_leaf)
      · exact .fail
      · exact flattens_ask_bind (.peek .fail)

theorem flattens_textBlockIfAny (budget : Nat) :
    Flattens tokens file stream (textBlockIfAny Hooks.none inner budget)
      fun block => ∀ found ∈ block, Every Flat found.nodes := by
  apply Flattens.peek
  split
  · refine .after .advance fun _ _ => .place fun span => ?_
    refine .bind (flattens_textBlockNodes flattens single budget every_nil) fun block _ found => ?_
    exact .pure (by simpa using found)
  · exact .pure (by simp)

theorem flattens_textBlockAt (budget : Nat) (span : Span) :
    Flattens tokens file stream (textBlockAt Hooks.none inner budget span)
      fun block => Every Flat block.nodes := by
  refine .bind (flattens_textBlockIfAny flattens single budget) fun block _ found => .pure ?_
  cases block with
  | none => exact every_nil
  | some block => exact found block rfl

/-! ### Tags -/

theorem flattens_tagContent (budget : Nat) (selfClosingAllowed : Bool) {parts : TagParts}
    (before : Every Flat parts.body.nodes) :
    Flattens tokens file stream (tagContent Hooks.none inner budget selfClosingAllowed parts)
      fun found => Every Flat found.body.nodes := by
  apply Flattens.peek
  split
  · exact .bind (flattens_text flattens single false budget) fun node _ below =>
      .pure (every_flat_splice before below)
  · exact .bind (flattens_text flattens single false budget) fun node _ below =>
      .pure (every_flat_splice before below)
  · refine .after .advance fun _ _ => .bind (flattens.expression _) fun node _ gives => ?_
    split
    · exact .pure gives.below
    · next other => exact .pure (.single (gives.below.flat other))
  · exact .pure before
  · exact .pure before
  · exact .pure before
  · exact .pure before
  · exact .pure before
  · exact .pure before
  · split
    · exact .after .advance fun _ _ => .pure before
    · exact flattens_ask_bind (.peek .fail)
  · exact flattens_ask_bind (.peek .fail)

/-- Everything behind the name of a tag, whose head begins. -/
theorem ensures_tag (budget : Nat) (selfClosingAllowed : Bool) (span : Span)
    (begins : stream.ReadsHead tokens file []) :
    Ensures (tag Hooks.none inner budget selfClosingAllowed span) stream fun parts after =>
      after.ReadsOn tokens file ∧ Every Flat parts.body.nodes := by
  have nothing : Every Flat (TagParts.start span).body.nodes := every_nil
  have head : Ensures (tagAttributes Hooks.none inner budget false (.start span)) stream
      fun parts after => after.ReadsOn tokens file ∧ parts.Sound Flat :=
    (leads_tagAttributes budget false begins).ensures.and
      (yields_tagAttributes budget false nothing Attribute.noted_nil |>.ensures stream)
  refine head.bind fun parts middle ⟨reads, before⟩ => ?_
  revert reads
  change Flattens tokens file middle _ fun found : TagParts => Every Flat found.body.nodes
  refine .peek ?_
  dsimp only
  split
  case' h_1 => refine .after .advance fun _ _ => ?_
  -- With a dot or without one, the rest of the tag is read in the same way.
  all_goals
    refine .pure_bind (.bind (flattens_tagContent flattens single budget selfClosingAllowed
      before.nodes) fun parts _ before => ?_)
    refine .after (stays_skipNewlines budget) fun _ _ => ?_
    split
    · exact .bind (flattens_textBlockAt flattens single budget _) fun block _ found => .pure found
    · refine .peek ?_
      split
      · exact .bind (flattens.block _) fun block _ found => .pure (by simp [before, found])
      · exact .pure before

theorem ensures_namedTag (budget : Nat) (name : String) (span : Span)
    (begins : stream.ReadsHead tokens file []) :
    Ensures (namedTag Hooks.none inner budget name span) stream fun node after =>
      after.ReadsOn tokens file ∧ node.Flat :=
  (ensures_tag flattens single budget true span begins).bind fun _ _ found =>
    .pure ⟨found.1, flat_branch (by simp) found.2⟩

theorem ensures_variableTag (budget : Nat) (expression : String) (span : Span)
    (begins : stream.ReadsHead tokens file []) :
    Ensures (variableTag Hooks.none inner budget expression span) stream fun node after =>
      after.ReadsOn tokens file ∧ node.Flat :=
  (ensures_tag flattens single budget true span begins).bind fun _ _ found =>
    .pure ⟨found.1, flat_branch (by simp) found.2⟩

theorem ensures_call (budget : Nat) (name : String) (arguments : Option String) (span : Span)
    (begins : stream.ReadsHead tokens file []) :
    Ensures (call Hooks.none inner budget name arguments span) stream fun node after =>
      after.ReadsOn tokens file ∧ node.Flat := by
  refine (ensures_tag flattens single budget false span begins).bind fun parts _ found => ?_
  dsimp only
  split
  · exact .pure ⟨found.1, flat_leaf⟩
  · exact .pure ⟨found.1, flat_branch (by simp) found.2⟩

/-! ### Expressions -/

omit single in
theorem flattens_blockNodes (budget : Nat) {block : Document} (before : Every Flat block.nodes) :
    Flattens tokens file stream (blockNodes inner budget block)
      fun block => Every Flat block.nodes := by
  induction budget generalizing block stream with
  | zero => exact .throw
  | succ budget ih =>
      apply Flattens.peek
      split
      · exact .after .advance fun _ _ => .pure before
      · exact .after .advance fun _ _ => ih before
      · exact .bind (flattens_html flattens budget) fun nodes _ found =>
          ih (by simp [before, found])
      · exact .bind (flattens.expression _) fun node _ gives =>
          ih (every_flat_splice before gives.below)

theorem flattens_filter (budget : Nat) (name : String) (span : Span) :
    Flattens tokens file stream (filter Hooks.none inner budget name span) Flat := by
  induction budget generalizing name span stream with
  | zero => exact .throw
  | succ budget ih =>
      refine .after (stays_attributesIfAny budget) fun found _ => .peek ?_
      dsimp only
      split
      · refine .after .advance fun _ _ => .place fun _ => flattens_textNode_bind fun _ => ?_
        exact .pure_bind (.pure (flat_branch (by simp) (.single flat_leaf)))
      · exact .after .advance fun _ _ => .place fun _ => .bind (ih _ _) fun node _ found =>
          .pure_bind (.pure (flat_branch (by simp) (.single found)))
      · exact .bind (flattens_textBlockAt flattens single budget span) fun body _ found =>
          .pure (flat_branch (by simp) found)

omit single in
theorem flattens_inclusion (budget : Nat) (span : Span) :
    Flattens tokens file stream (inclusion inner budget span) Flat := by
  refine .after (stays_includeFilters budget []) fun filters _ => ?_
  refine .after .expectPath fun found _ => .place fun place => .peek ?_
  dsimp only
  split
  · split
    · exact .bind (flattens.block _) fun body _ found => .pure (flat_file found)
    · exact .pure_bind (.pure (flat_file every_nil))
  · split
    · exact .fail
    · exact .pure (flat_file every_nil)

omit single in
theorem flattens_mixin (name : String) (arguments : Option String) (start : Span) :
    Flattens tokens file stream (mixin inner name arguments start) Flat := by
  apply Flattens.peek
  split
  · exact .bind (flattens.block _) fun body _ found => .place fun _ =>
      .pure (flat_branch (by simp) found)
  · exact .fail

end

section

variable {inner : Grammar}

/-- The end of an interpolation ends a run of text. -/
theorem ensures_textNodes_end (blockMode : Bool) (budget : Nat) (nodes : List Node)
    (ends : stream.next.kind = .endInterpolation) :
    Ensures (textNodes Hooks.none inner blockMode budget nodes) stream fun found _ =>
      found = nodes := by
  cases budget with
  | zero => exact .throw
  | succ budget =>
      refine .get_bind ?_
      simp only [ends]
      exact .pure rfl

/-- A text or a variable that is alone in an interpolation is the only node of its run. -/
theorem ensures_textNodes_single (blockMode : Bool) (budget : Nat)
    (word : stream.next.kind.isWord) (ends : stream.tail.next.kind = .endInterpolation) :
    Ensures (textNodes Hooks.none inner blockMode budget []) stream fun nodes _ =>
      ∃ span content, nodes = [.leaf span content] := by
  cases budget with
  | zero => exact .throw
  | succ budget =>
      cases kind : stream.next.kind
      case text | code =>
        refine .get_bind ?_
        simp only [kind]
        exact (ensures_textNodes_end blockMode budget _ ends).mono fun _ _ only => ⟨_, _, only⟩
      all_goals simp [kind, TokenKind.isWord] at word

theorem ensures_text_single (blockMode : Bool) (budget : Nat)
    (word : stream.next.kind.isWord) (ends : stream.tail.next.kind = .endInterpolation) :
    Ensures (text Hooks.none inner blockMode budget) stream fun node _ => node.isBlock = false := by
  refine .get_bind (.get_bind ?_)
  refine (ensures_textNodes_single blockMode budget word ends).bind ?_
  rintro _ _ ⟨span, content, rfl⟩
  exact .pure rfl

/-- An expression that begins with a text or a variable. -/
theorem flattens_textExpression (flattens : inner.FlattensOn tokens file)
    (single : InterpolationsSingle (tokens.map Token.kind)) (budget : Nat)
    (word : stream.next.kind.isWord) :
    Flattens tokens file stream (text Hooks.none inner true budget) stream.Gives := by
  intro reads node after done
  rcases flattens_text flattens single true budget reads node after done with ⟨readsOn, below⟩
  refine ⟨readsOn, below, fun begins => ?_⟩
  have ends := (TokenKind.beginsSingle_iff_of_isWord word).mp begins
  exact ensures_text_single true budget word ends node after done

end

/-- An expression is no block where a single node begins, when the layer below dissolves blocks. -/
theorem flattens_expressionRule {layer : Bool → Grammar}
    (flattens : ∀ inMixin, (layer inMixin).FlattensOn tokens file)
    (single : InterpolationsSingle (tokens.map Token.kind)) (inMixin : Bool) (budget : Nat) :
    Flattens tokens file stream (expressionRule Hooks.none layer inMixin budget) stream.Gives := by
  have inner := flattens inMixin
  have gives {start : TokenStream} {action : Parsing Node}
      (flat : Ensures action start fun node after => after.ReadsOn tokens file ∧ node.Flat) :
      Ensures action start fun node after => after.ReadsOn tokens file ∧ stream.Gives node :=
    flat.mono fun _ _ found => ⟨found.1, .of_flat found.2⟩
  refine .peek (.place fun span => ?_)
  dsimp only
  split
  · rename_i name kind
    have begins : stream.next.kind.beginsTag := by rw [kind]; rfl
    exact fun reads =>
      ensures_advance_bind (gives (ensures_namedTag inner single _ _ _ (reads.opens begins)))
  · rename_i value kind
    have begins : stream.next.kind.beginsTag := by rw [kind]; rfl
    exact fun reads => gives (ensures_namedTag inner single _ _ _ (reads.opensHere begins))
  · rename_i value kind
    have begins : stream.next.kind.beginsTag := by rw [kind]; rfl
    exact fun reads => gives (ensures_namedTag inner single _ _ _ (reads.opensHere begins))
  · exact .after .advance fun _ _ => (flattens_mixin (flattens true) _ _ _).gives
  · refine .after .advance fun _ _ => .peek ?_
    split
    · exact .bind (inner.block _) fun body _ found =>
        .pure_bind (.pure (.of_flat (flat_branch (by simp) found)))
    · exact .pure_bind (.pure (.of_flat (flat_branch (by simp) every_nil)))
  · refine .after .advance fun _ _ => ?_
    split
    · exact .pure (.of_flat flat_leaf)
    · exact .fail
  · exact .after .advance fun _ _ => .after .expectPath fun _ _ => .place fun _ =>
      .pure (.of_flat (flat_file every_nil))
  · exact .after .advance fun _ _ => (flattens_inclusion inner _ _).gives
  · exact .after .advance fun _ _ => .pure (.of_flat flat_leaf)
  · exact .after .advance fun _ _ => (flattens_filter inner single _ _ _).gives
  · refine .after .advance fun _ _ => .bind (flattens_textBlockIfAny inner single budget) ?_
    rintro (_ | body) _ found
    · exact .pure (.of_flat flat_leaf)
    · exact .pure (.of_flat (flat_branch (by simp) (found body rfl)))
  · rename_i value kind
    exact flattens_textExpression inner single budget (by rw [kind]; rfl)
  · rename_i expression buffered escaped kind
    exact flattens_textExpression inner single budget (by rw [kind]; rfl)
  · rename_i kind
    have never : ¬stream.next.kind.beginsSingle stream.tail.next.kind := by
      simp [kind, TokenKind.beginsSingle]
    exact (flattens_text inner single true budget).mono fun _ => .of_below never
  · rename_i value kind
    have never : ¬stream.next.kind.beginsSingle stream.tail.next.kind := by
      simp [kind, TokenKind.beginsSingle]
    exact .bind (flattens_html inner budget) fun nodes _ found => .pure (.of_below never found)
  · rename_i kind
    have never : ¬stream.next.kind.beginsSingle stream.tail.next.kind := by
      simp [kind, TokenKind.beginsSingle]
    exact .after .advance fun _ _ => .bind (flattens_textBlockAt inner single budget _)
      fun body _ found => .pure (.of_below never found)
  · rename_i name arguments kind
    have begins : stream.next.kind.beginsTag := by rw [kind]; rfl
    exact fun reads =>
      ensures_advance_bind (gives (ensures_call inner single _ _ _ _ (reads.opens begins)))
  · rename_i expression kind
    have begins : stream.next.kind.beginsTag := by rw [kind]; rfl
    exact fun reads =>
      ensures_advance_bind (gives (ensures_variableTag inner single _ _ _ (reads.opens begins)))
  · exact .after .advance fun _ _ => .pure (.of_flat flat_leaf)
  · exact flattens_ask_bind (.peek .fail)

end Grammar

/-- Each layer dissolves blocks without a name, as the one below it does. -/
theorem flattensOn_grammar (single : InterpolationsSingle (tokens.map Token.kind)) (layers : Nat)
    (inMixin : Bool) : (grammar Hooks.none layers inMixin).FlattensOn tokens file := by
  induction layers generalizing inMixin with
  | zero => exact ⟨fun _ => .throw, fun _ => .throw⟩
  | succ layers ih =>
      exact {
        expression := fun _ => Grammar.flattens_expressionRule ih single inMixin layers
        block := fun _ => .after (.expect _) fun _ _ => .place fun _ =>
          Grammar.flattens_blockNodes (ih inMixin) layers every_nil }

theorem flattens_documentNodes {inner : Grammar} (flattens : inner.FlattensOn tokens file)
    (budget : Nat) {nodes : List Node} (before : Every Flat nodes) :
    Flattens tokens file stream (documentNodes inner budget nodes) (Every Flat) := by
  induction budget generalizing nodes stream with
  | zero => exact .throw
  | succ budget ih =>
      apply Flattens.peek
      split
      · exact .pure before
      · exact .after .advance fun _ _ => ih before
      · exact .bind (Grammar.flattens_html flattens budget) fun found _ each =>
          ih (by simp [before, each])
      · exact .bind (flattens.expression _) fun node _ gives =>
          ih (every_flat_splice before gives.below)

/-! ### Documents -/

variable {source : Option String} {document : Document} {before after : Array Event}

/-- The tokens of a document up to the end of the text, and what they contain, once and in order. -/
theorem exists_read_of_parse
    (parsed : parse tokens { file, source } before = .ok document after)
    (dots : DotsEnd (tokens.map Token.kind)) :
    ∃ read left, tokens.map Token.kind = read ++ left ∧ left.headD .eos = .eos ∧
      Node.contentAll document.nodes = TokenKind.contentOf false read := by
  rcases exists_documentNodes_of_parse parsed with ⟨last, read⟩
  have fits : TokenStream.Fits { TokenStream.ofTokens file source tokens with events := before } :=
    ⟨kind_endingOf tokens, dots⟩
  rcases keeps_documentNodes (keepsContent_grammar _ false) _ _ fits _ _ read with
    ⟨content, ⟨stays, covers, _⟩, kept⟩
  rcases covers.consumed with ⟨consumed, pending, found, _⟩
  refine ⟨consumed.map Token.kind, last.pending.map Token.kind, ?_, ?_, ?_⟩
  · rw [← List.map_append, ← pending]
    rfl
  · rw [headD_map_kind (covers.fits fits).ending]
    exact ensures_documentNodes _ _ _ _ read
  · rw [kept, found]
    rfl

/-- When tokens form a document and a single node stands in every interpolation, then no node of
the document is a block without a name, at any depth. What such blocks contain is in its place: as
long as no dot gives up what stands behind it, the document contains what its tokens do, once and
in order. -/
theorem isBlock_eq_false_of_parse
    (parsed : parse tokens { file, source } before = .ok document after)
    (single : InterpolationsSingle (tokens.map Token.kind)) :
    (∀ node ∈ document.walk, node.isBlock = false) ∧
      (DotsEnd (tokens.map Token.kind) →
        ∃ read left, tokens.map Token.kind = read ++ left ∧ left.headD .eos = .eos ∧
          Node.contentAll document.nodes = TokenKind.contentOf false read) := by
  refine ⟨?_, exists_read_of_parse parsed⟩
  rcases exists_documentNodes_of_parse parsed with ⟨last, read⟩
  have reads : TokenStream.ReadsOn tokens file
      { TokenStream.ofTokens file source tokens with events := before } :=
    ⟨rfl, kind_endingOf tokens, List.suffix_refl tokens⟩
  have flat := flattens_documentNodes (flattensOn_grammar single _ false) _ every_nil reads _ _ read
  exact every_walkAll_iff.mpr flat.2

/-- A run of text over two lines with an interpolated tag and an interpolated text, a line to copy,
and a tag with a text block. -/
theorem isBlock_eq_false_of_parse_page :
    ∃ tokens between document after,
      tokenize "p a #[b c] d\n  | e #[| f]\n<hr>\np.\n  g" {} #[] = .ok tokens between ∧
      parse tokens.toList {} #[] = .ok document after ∧
      InterpolationsSingle (tokens.toList.map Token.kind) ∧
      ∀ node ∈ document.walk, node.isBlock = false := by
  have kinds : (match tokenize "p a #[b c] d\n  | e #[| f]\n<hr>\np.\n  g" {} #[] with
      | .ok tokens _ => tokens.toList.map Token.kind
      | .error _ _ => []) =
      [.tag "p", .text "a ", .startInterpolation, .tag "b", .text "c", .endInterpolation,
        .text " d", .indent 2, .text "e ", .startInterpolation, .text "f", .endInterpolation,
        .text "", .outdent, .html "<hr>", .newline, .tag "p", .dot, .startTextBlock, .text "g",
        .endTextBlock, .eos] := by
    decide +kernel
  have parses : (match tokenize "p a #[b c] d\n  | e #[| f]\n<hr>\np.\n  g" {} #[] with
      | .ok tokens _ => (parse tokens.toList {} #[] |> outcome).toBool
      | .error _ _ => false) = true := by
    decide +kernel
  cases lexed : tokenize "p a #[b c] d\n  | e #[| f]\n<hr>\np.\n  g" {} #[] with
  | error fault after => simp [lexed] at kinds
  | ok tokens between =>
      simp only [lexed] at kinds parses
      cases parsed : parse tokens.toList {} #[] with
      | error fault after => simp [parsed, outcome, Except.toBool] at parses
      | ok document after =>
          have single : InterpolationsSingle (tokens.toList.map Token.kind) := by
            rw [kinds]
            decide
          exact ⟨tokens, between, document, after, rfl, parsed, single,
            (isBlock_eq_false_of_parse parsed single).1⟩

/-- A text with a variable stays a block in an interpolation. -/
example : (outcome (Document.ofSource {} none "p a #[ b #{c}]" #[])).toOption.map
    (fun document => document.walk.any Node.isBlock) = some true := by
  decide +kernel

end Offside
