import Offside.Proofs.Arguments.Lines
import Offside.Proofs.Conservation.Document
import Offside.Proofs.Contract.Rendering

/-!
# Mixins at the top level

A declaration or a call that begins a line outside of all levels becomes a node of the document
itself. The reason is that no rule of the grammar reads so far: each rule that starts in front of
that line stops in front of it, or at its beginning, or fails. Only the rule for the nodes of a
document goes on.
-/

namespace Offside

open Computing Parsing TokenStream

/-! ### The rules of the grammar -/

namespace Parsing

variable {α : Type}

/-- Unless it fails, the computation stops in front of the line or at its beginning. -/
def StopsBefore (line : MixinLine) (depth : Nat) (action : Parsing α) (stream : TokenStream) :
    Prop :=
  Ensures action stream fun _ after => after.Before line depth

/-- Unless it fails, the computation stops in front of the line. -/
def StopsWithin (line : MixinLine) (depth : Nat) (action : Parsing α) (stream : TokenStream) :
    Prop :=
  Ensures action stream fun _ after => after.Within line depth

end Parsing

namespace Grammar

/-- A grammar that never reads beyond the beginning of the line. -/
structure Respects (line : MixinLine) (grammar : Grammar) : Prop where
  expression : ∀ {depth stream}, stream.Within line depth →
    StopsBefore line depth grammar.expression stream
  block : ∀ {depth stream}, stream.Before line depth →
    StopsBefore line depth grammar.block stream
  textBlock : ∀ {depth stream}, stream.Before line depth →
    StopsBefore line depth grammar.textBlock stream

variable {line : MixinLine} {depth : Nat} {stream : TokenStream}

section

variable {α : Type} {holds : α → TokenStream → Prop}

theorem ensures_ask_bind {grammar : Grammar} {context : HookContext} {goal : context.Target}
    {next : HookOutcome × context.Target → Parsing α}
    (declined : Ensures (next (.declined, goal)) stream holds) :
    Ensures (Hooks.none.ask grammar context goal >>= next) stream holds :=
  declined

theorem ensures_pure_bind {β : Type} {value : β} {next : β → Parsing α}
    (each : Ensures (next value) stream holds) : Ensures (pure value >>= next) stream holds :=
  each

theorem ensures_fail {span : Span} {cause : ParseFault} :
    Ensures (fail span cause : Parsing α) stream holds :=
  .get_bind .throw

end

/-- A token in a line is read, which is given by its name. -/
theorem stopsWithin_expect (before : stream.Before line depth) {name : String}
    (inline : ∀ kind : TokenKind, kind.name = name →
      kind.isMixin = false ∧ kind.isLayout = false) :
    StopsWithin line depth (expect name) stream := by
  refine .get_bind ?_
  split
  · next same =>
      rcases inline _ same with ⟨other, inline⟩
      exact ensures_advance_bind (.pure (before.inline rfl other inline))
  · exact ensures_fail

theorem stopsWithin_expectPath (before : stream.Before line depth) :
    StopsWithin line depth expectPath stream := by
  refine .get_bind ?_
  split
  · next kind => exact ensures_advance_bind (.pure (before.inline kind rfl rfl))
  · exact ensures_fail

theorem inline_of_name_eq {kind : TokenKind}
    (name : kind.name = "start-attributes" ∨ kind.name = "end-attributes" ∨
      kind.name = "end-interpolation") : kind.isMixin = false ∧ kind.isLayout = false := by
  cases kind <;> first | exact ⟨rfl, rfl⟩ | simp [TokenKind.name] at name

theorem stopsWithin_attributeTokens (budget : Nat) (names : Option (List String))
    (found : List Attribute) (before : stream.Before line depth) :
    StopsWithin line depth (attributeTokens budget names found) stream := by
  induction budget generalizing stream names found with
  | zero => exact .throw
  | succ budget ih =>
      refine .get_bind ?_
      split
      · next name value kind =>
          have after := (before.inline kind rfl rfl).before
          refine ensures_advance_bind (.get_bind ?_)
          cases names with
          | none => exact ih _ _ after
          | some names =>
              dsimp only
              split
              · exact ih _ _ after
              · split
                · exact .bind ensures_fail fun _ _ => False.elim
                · exact ih _ _ after
      · exact .bind (stopsWithin_expect before fun _ name => inline_of_name_eq (.inr (.inl name)))
          fun _ _ after => .pure after

theorem stopsWithin_attributes (budget : Nat) (names : Option (List String))
    (before : stream.Before line depth) :
    StopsWithin line depth (attributes budget names) stream :=
  .bind (stopsWithin_expect before fun _ name => inline_of_name_eq (.inl name)) fun _ _ within =>
    stopsWithin_attributeTokens budget names [] within.before

theorem stopsWithin_attributesIfAny (budget : Nat) (within : stream.Within line depth) :
    StopsWithin line depth (attributesIfAny budget) stream := by
  refine .get_bind ?_
  split
  · exact .bind (stopsWithin_attributes budget none within.before) fun _ _ after => .pure after
  · exact .pure within

theorem stopsWithin_tagAttributes {inner : Grammar} (budget : Nat) (seenList : Bool)
    (parts : TagParts) (within : stream.Within line depth) :
    StopsWithin line depth (tagAttributes Hooks.none inner budget seenList parts) stream := by
  induction budget generalizing stream seenList parts with
  | zero => exact .throw
  | succ budget ih =>
      refine .get_bind ?_
      split
      · next value kind =>
          have after := within.inline kind rfl
          refine ensures_advance_bind ?_
          split
          · exact .bind ensures_fail fun _ _ => False.elim
          · exact .get_bind (ih _ _ after)
      · next value kind =>
          exact ensures_advance_bind (.get_bind (ih _ _ (within.inline kind rfl)))
      · dsimp only
        split
        · refine .modify_bind (.bind (stopsWithin_attributes budget _ ?_) fun _ _ after =>
            ih _ _ after)
          exact ⟨within.file, within.before.pending⟩
        · exact .bind (stopsWithin_attributes budget _ within.before) fun _ _ after =>
            ih _ _ after
      · exact ensures_ask_bind (.pure within)

/-! ### Texts -/

section Text

variable {inner : Grammar} (respects : inner.Respects line)

include respects

theorem stopsWithin_interpolated (before : stream.Before line depth)
    (kind : stream.next.kind = .startInterpolation) :
    StopsWithin line depth (interpolated inner) stream := by
  refine ensures_advance_bind ?_
  refine .bind (respects.expression (before.inline kind rfl rfl)) fun _ _ after => ?_
  refine .bind (stopsWithin_expect after fun _ name => ?_) fun _ _ after => .pure after
  exact inline_of_name_eq (.inr (.inr name))

theorem stopsBefore_textNodes (blockMode : Bool) (budget : Nat) (nodes : List Node)
    (before : stream.Before line depth) :
    StopsBefore line depth (textNodes Hooks.none inner blockMode budget nodes) stream := by
  induction budget generalizing stream nodes with
  | zero => exact .throw
  | succ budget ih =>
      refine .get_bind ?_
      split
      · next value kind =>
          exact ensures_advance_bind (.get_bind (ih _ (before.inline kind rfl rfl).before))
      · next kind =>
          exact ensures_advance_bind (.get_bind (ih _ (before.inline kind rfl rfl).before))
      · next kind =>
          split
          · have after := (before.within kind rfl).newline kind
            refine ensures_advance_bind (.get_bind ?_)
            split
            · exact .get_bind (ih _ after)
            · exact .get_bind (ih _ after)
            · exact ih _ after
          · exact .pure before
      · next kind =>
          exact .bind (stopsWithin_interpolated respects before kind) fun _ _ after =>
            ih _ after.before
      · exact ensures_ask_bind (.pure before)

theorem stopsBefore_text (blockMode : Bool) (budget : Nat) (before : stream.Before line depth) :
    StopsBefore line depth (text Hooks.none inner blockMode budget) stream := by
  refine .get_bind (.get_bind ?_)
  refine .bind (stopsBefore_textNodes respects blockMode budget [] before) fun nodes _ after => ?_
  split
  · exact .pure after
  · exact .pure after

theorem stopsBefore_htmlRun (budget : Nat) (run : HtmlRun) (before : stream.Before line depth) :
    StopsBefore line depth (htmlRun inner budget run) stream := by
  induction budget generalizing stream run with
  | zero => exact .throw
  | succ budget ih =>
      refine .get_bind ?_
      split
      · next value kind =>
          exact ensures_advance_bind (.get_bind (ih _ (before.inline kind rfl rfl).before))
      · exact .bind (respects.block before) fun _ _ after => ih _ after
      · next kind =>
          exact ensures_advance_bind (ih _ ((before.within kind rfl).newline kind))
      · exact .pure before

theorem stopsBefore_textBlockNodes (budget : Nat) (block : Document)
    (before : stream.Before line depth) :
    StopsBefore line depth (textBlockNodes Hooks.none inner budget block) stream := by
  induction budget generalizing stream block with
  | zero => exact .throw
  | succ budget ih =>
      refine .get_bind ?_
      split
      · next kind => exact ensures_advance_bind (.pure (before.inline kind rfl rfl).before)
      · next value kind =>
          exact ensures_advance_bind (.get_bind (ih _ (before.inline kind rfl rfl).before))
      · next kind =>
          exact ensures_advance_bind (.get_bind (ih _ ((before.within kind rfl).newline kind)))
      · next kind =>
          exact .bind (stopsWithin_interpolated respects before kind) fun _ _ after =>
            ih _ after.before
      · next kind =>
          exact ensures_advance_bind (.get_bind (ih _ (before.inline kind rfl rfl).before))
      · exact ensures_fail
      · exact ensures_ask_bind (.get_bind ensures_fail)

theorem stopsBefore_textBlockIfAny (budget : Nat) (before : stream.Before line depth) :
    StopsBefore line depth (textBlockIfAny Hooks.none inner budget) stream := by
  refine .get_bind ?_
  split
  · next kind =>
      refine ensures_advance_bind (.get_bind ?_)
      exact .bind (stopsBefore_textBlockNodes respects budget _ (before.inline kind rfl rfl).before)
        fun _ _ after => .pure after
  · exact .pure before

theorem stopsBefore_textBlockAt (budget : Nat) (span : Span) (before : stream.Before line depth) :
    StopsBefore line depth (textBlockAt Hooks.none inner budget span) stream :=
  .bind (stopsBefore_textBlockIfAny respects budget before) fun _ _ after => .pure after

end Text

/-! ### Tags and the other expressions -/

theorem stopsBefore_skipNewlines (budget : Nat) (before : stream.Before line depth) :
    StopsBefore line depth (skipNewlines budget) stream := by
  induction budget generalizing stream with
  | zero => exact .throw
  | succ budget ih =>
      refine .get_bind ?_
      split
      · next kind => exact ensures_advance_bind (ih ((before.within kind rfl).newline kind))
      · exact .pure before

theorem stopsWithin_includeFilters (budget : Nat) (found : List IncludeFilter)
    (within : stream.Within line depth) :
    StopsWithin line depth (includeFilters budget found) stream := by
  induction budget generalizing stream found with
  | zero => exact .throw
  | succ budget ih =>
      refine .get_bind ?_
      split
      · next name kind =>
          refine ensures_advance_bind ?_
          exact .bind (stopsWithin_attributesIfAny budget (within.inline kind rfl))
            fun _ _ after => .get_bind (ih _ after)
      · exact .pure within

section Expression

variable {inner : Grammar} (respects : inner.Respects line)

include respects

theorem stopsBefore_tagContent (budget : Nat) (selfClosingAllowed : Bool) (parts : TagParts)
    (within : stream.Within line depth) :
    StopsBefore line depth (tagContent Hooks.none inner budget selfClosingAllowed parts)
      stream := by
  have before := within.before
  refine .get_bind ?_
  split
  · exact .bind (stopsBefore_text respects false budget before) fun _ _ after => .pure after
  · exact .bind (stopsBefore_text respects false budget before) fun _ _ after => .pure after
  · next kind =>
      refine ensures_advance_bind ?_
      refine .bind (respects.expression (within.inline kind rfl)) fun node _ after => ?_
      split
      · exact .pure after
      · exact .pure after
  · exact .pure before
  · exact .pure before
  · exact .pure before
  · exact .pure before
  · exact .pure before
  · exact .pure before
  · next kind =>
      split
      · exact ensures_advance_bind (.pure (within.inline kind rfl).before)
      · exact ensures_ask_bind (.get_bind ensures_fail)
  · exact ensures_ask_bind (.get_bind ensures_fail)

theorem stopsBefore_tag (budget : Nat) (selfClosingAllowed : Bool) (span : Span)
    (within : stream.Within line depth) :
    StopsBefore line depth (tag Hooks.none inner budget selfClosingAllowed span) stream := by
  refine .bind (stopsWithin_tagAttributes budget false _ within) fun parts middle within => ?_
  refine .get_bind ?_
  dsimp only
  split
  case' h_1 kind =>
    have within := within.inline kind rfl
    refine ensures_advance_bind ?_
  -- With a dot or without one, the rest of the tag is read in the same way.
  all_goals
    refine ensures_pure_bind (.bind (stopsBefore_tagContent respects budget _ _ within) ?_)
    intro parts _ after
    refine .bind (stopsBefore_skipNewlines budget after) fun _ _ after => ?_
    split
    · exact .bind (stopsBefore_textBlockAt respects budget _ after) fun _ _ after => .pure after
    · refine .get_bind ?_
      split
      · exact .bind (respects.block after) fun _ _ after => .pure after
      · exact .pure after

theorem stopsBefore_namedTag (budget : Nat) (name : String) (span : Span)
    (within : stream.Within line depth) :
    StopsBefore line depth (namedTag Hooks.none inner budget name span) stream :=
  .bind (stopsBefore_tag respects budget true span within) fun _ _ after => .pure after

theorem stopsBefore_variableTag (budget : Nat) (expression : String) (span : Span)
    (within : stream.Within line depth) :
    StopsBefore line depth (variableTag Hooks.none inner budget expression span) stream :=
  .bind (stopsBefore_tag respects budget true span within) fun _ _ after => .pure after

theorem stopsBefore_call (budget : Nat) (name : String) (arguments : Option String) (span : Span)
    (within : stream.Within line depth) :
    StopsBefore line depth (call Hooks.none inner budget name arguments span) stream := by
  refine .bind (stopsBefore_tag respects budget false span within) fun parts _ after => ?_
  dsimp only
  split
  · exact .pure after
  · exact .pure after

theorem stopsBefore_blockNodes (budget : Nat) (block : Document)
    (before : stream.Before line (depth + 1)) :
    StopsBefore line depth (blockNodes inner budget block) stream := by
  induction budget generalizing stream block with
  | zero => exact .throw
  | succ budget ih =>
      have within := before.within_level
      refine .get_bind ?_
      split
      · next kind => exact ensures_advance_bind (.pure (within.outdent kind))
      · next kind => exact ensures_advance_bind (ih _ (within.newline kind))
      · exact .bind (stopsBefore_htmlRun respects budget _ before) fun _ _ after => ih _ after
      · exact .bind (respects.expression within) fun _ _ after => ih _ after

theorem stopsBefore_indentedBlock (budget : Nat) (before : stream.Before line depth) :
    StopsBefore line depth (indentedBlock inner budget) stream := by
  have opens : Ensures (expect "indent") stream fun _ after => after.Before line (depth + 1) := by
    refine .get_bind ?_
    split
    · next same =>
        obtain ⟨width, kind⟩ : ∃ width, stream.next.kind = .indent width := by
          generalize stream.next = token at same
          rcases token with ⟨kind, span, stop⟩
          cases kind <;> simp [Token.name, TokenKind.name] at same ⊢
        exact ensures_advance_bind (.pure ((before.within kind rfl).indent kind))
    · exact ensures_fail
  exact .bind opens fun _ _ inside => .get_bind (stopsBefore_blockNodes respects budget _ inside)

theorem stopsBefore_filter (budget : Nat) (name : String) (span : Span)
    (within : stream.Within line depth) :
    StopsBefore line depth (filter Hooks.none inner budget name span) stream := by
  induction budget generalizing stream name span with
  | zero => exact .throw
  | succ budget ih =>
      refine .bind (stopsWithin_attributesIfAny budget within) fun _ _ within => .get_bind ?_
      dsimp only
      split
      · next value kind =>
          refine ensures_advance_bind (.get_bind (.get_bind ?_))
          exact .pure (within.inline kind rfl).before
      · next nested kind =>
          refine ensures_advance_bind (.get_bind ?_)
          exact .bind (ih _ _ (within.inline kind rfl)) fun _ _ after => .pure after
      · exact .bind (stopsBefore_textBlockAt respects budget span within.before)
          fun _ _ after => .pure after

theorem stopsBefore_inclusion (budget : Nat) (span : Span) (within : stream.Within line depth) :
    StopsBefore line depth (inclusion inner budget span) stream := by
  refine .bind (stopsWithin_includeFilters budget [] within) fun filters _ within => ?_
  refine .bind (stopsWithin_expectPath within.before) fun found _ within => ?_
  have before := within.before
  refine .get_bind (.get_bind ?_)
  dsimp only
  split
  · split
    · exact .bind (respects.block before) fun _ _ after => .pure after
    · exact .pure before
  · split
    · exact ensures_fail
    · exact .pure before

theorem stopsBefore_mixin (name : String) (arguments : Option String) (start : Span)
    (within : stream.Within line depth) :
    StopsBefore line depth (mixin inner name arguments start) stream := by
  refine .get_bind ?_
  split
  · exact .bind (respects.block within.before) fun _ _ after => .get_bind (.pure after)
  · exact ensures_fail

end Expression

theorem stopsBefore_expressionRule {layer : Bool → Grammar}
    (respects : ∀ inMixin, (layer inMixin).Respects line) (inMixin : Bool) (budget : Nat)
    (within : stream.Within line depth) :
    StopsBefore line depth (expressionRule Hooks.none layer inMixin budget) stream := by
  have inner := respects inMixin
  have before := within.before
  refine .get_bind (.get_bind ?_)
  dsimp only
  split
  · next kind =>
      exact ensures_advance_bind (stopsBefore_namedTag inner _ _ _ (within.inline kind rfl))
  · exact stopsBefore_namedTag inner _ _ _ within
  · exact stopsBefore_namedTag inner _ _ _ within
  · next kind =>
      exact ensures_advance_bind
        (stopsBefore_mixin (respects true) _ _ _ (within.inline kind rfl))
  · next kind =>
      have after := (within.inline kind rfl).before
      refine ensures_advance_bind (.get_bind ?_)
      split
      · exact .bind (inner.block after) fun _ _ after => .pure after
      · exact .pure after
  · next kind =>
      refine ensures_advance_bind ?_
      split
      · exact .pure (within.inline kind rfl).before
      · exact ensures_fail
  · next kind =>
      refine ensures_advance_bind ?_
      exact .bind (stopsWithin_expectPath (within.inline kind rfl).before) fun _ _ after =>
        .get_bind (.pure after.before)
  · next kind =>
      exact ensures_advance_bind (stopsBefore_inclusion inner _ _ (within.inline kind rfl))
  · next kind => exact ensures_advance_bind (.pure (within.inline kind rfl).before)
  · next kind =>
      exact ensures_advance_bind (stopsBefore_filter inner _ _ _ (within.inline kind rfl))
  · next kind =>
      have after := (within.inline kind rfl).before
      refine ensures_advance_bind (.bind (stopsBefore_textBlockIfAny inner budget after) ?_)
      rintro (_ | body) _ after
      · exact .pure after
      · exact .pure after
  · exact stopsBefore_text inner true budget before
  · exact stopsBefore_text inner true budget before
  · exact stopsBefore_text inner true budget before
  · exact .bind (stopsBefore_htmlRun inner budget _ before) fun _ _ after => .pure after
  · next kind =>
      have after := (within.inline kind rfl).before
      exact ensures_advance_bind (.bind (stopsBefore_textBlockAt inner budget _ after)
        fun _ _ after => .pure after)
  · next kind =>
      exact ensures_advance_bind (stopsBefore_call inner _ _ _ _ (within.inline kind rfl))
  · next kind =>
      exact ensures_advance_bind (stopsBefore_variableTag inner _ _ _ (within.inline kind rfl))
  · next kind => exact ensures_advance_bind (.pure (within.inline kind rfl).before)
  · exact ensures_ask_bind (.get_bind ensures_fail)

end Grammar

theorem respects_grammar (line : MixinLine) (layers : Nat) (inMixin : Bool) :
    (grammar Hooks.none layers inMixin).Respects line := by
  induction layers generalizing inMixin with
  | zero => exact ⟨fun _ => .throw, fun _ => .throw, fun _ => .throw⟩
  | succ layers ih =>
      exact {
        expression := Grammar.stopsBefore_expressionRule ih inMixin layers
        block := Grammar.stopsBefore_indentedBlock (ih inMixin) layers
        textBlock := Grammar.stopsBefore_textBlockIfAny (ih inMixin) layers }

/-! ### From tokens to the nodes of a document -/

/-- Where a mixin is declared or called, and how. -/
def Node.mixinHead? (node : Node) : Option (Span × MixinHead) :=
  node.mixin?.map fun (head, _) => (node.span, head)

theorem Node.exists_mixin?_of_mixinHead? {node : Node} {span : Span} {head : MixinHead}
    (isHead : node.mixinHead? = some (span, head)) :
    node.span = span ∧ ∃ children, node.mixin? = some (head, children) := by
  rcases Option.map_eq_some_iff.mp isHead with ⟨⟨_, children⟩, isMixin, same⟩
  cases same
  exact ⟨rfl, children, isMixin⟩

section

variable {inner : Grammar} {stream : TokenStream}

theorem prefix_splice (nodes : List Node) (node : Node) : nodes <+: Grammar.splice nodes node := by
  unfold Grammar.splice
  split
  · exact List.prefix_append ..
  · exact List.prefix_append ..

theorem splice_of_mixin? (nodes : List Node) {node : Node} {found : MixinHead × List Node}
    (isMixin : node.mixin? = some found) : Grammar.splice nodes node = nodes ++ [node] := by
  unfold Grammar.splice
  split
  · cases isMixin
  · rfl

theorem ensures_prefix_documentNodes (budget : Nat) (nodes : List Node) :
    Ensures (documentNodes inner budget nodes) stream fun found _ => nodes <+: found := by
  induction budget generalizing nodes stream with
  | zero => exact .throw
  | succ budget ih =>
      refine .get_bind ?_
      split
      · exact .pure List.prefix_rfl
      · exact Grammar.ensures_advance_bind (ih _)
      · exact .bind (fun _ _ _ => True.intro) fun _ _ _ =>
          (ih _).mono fun _ _ => (List.prefix_append ..).trans
      · exact .bind (fun _ _ _ => True.intro) fun _ _ _ =>
          (ih _).mono fun _ _ => (prefix_splice ..).trans

/-- Rounds of a document lead to the beginning of the line, where one of them starts. -/
theorem exists_documentNodes_of_before {line : MixinLine} (respects : inner.Respects line)
    {budget : Nat} {nodes found : List Node} {after : TokenStream}
    (before : stream.Before line 0)
    (done : documentNodes inner budget nodes stream = .ok found after) :
    ∃ left later begins, nodes <+: later ∧ begins.file = line.file ∧
      begins.pending = line.first :: line.others ∧
      documentNodes inner left later begins = .ok found after := by
  have rounds : Ensures (documentNodes inner budget nodes) stream fun found after =>
      ∃ left later begins, nodes <+: later ∧ begins.file = line.file ∧
        begins.pending = line.first :: line.others ∧
        documentNodes inner left later begins = .ok found after := by
    clear done
    induction budget generalizing nodes stream with
    | zero => exact .throw
    | succ budget ih =>
        rcases before.within_or_here with within | ⟨-, here⟩
        · refine .get_bind ?_
          split
          · next atEnd => exact absurd atEnd within.next_ne_eos
          · next kind => exact Grammar.ensures_advance_bind (ih (within.newline kind))
          · refine .bind (Grammar.stopsBefore_htmlRun respects budget _ before) ?_
            intro more _ further
            refine (ih further).mono ?_
            rintro found after ⟨left, later, begins, longer, parts⟩
            exact ⟨left, later, begins, (List.prefix_append ..).trans longer, parts⟩
          · refine .bind (respects.expression within) fun node _ further => ?_
            refine (ih further).mono ?_
            rintro found after ⟨left, later, begins, longer, parts⟩
            exact ⟨left, later, begins, (prefix_splice ..).trans longer, parts⟩
        · exact fun found after done =>
            ⟨budget + 1, nodes, stream, List.prefix_rfl, before.file, here, done⟩
  exact rounds found after done

/-- The token of a call becomes a call, with the same arguments. -/
theorem ensures_expression_call {layers : Nat} {name : String} {arguments : Option String}
    (isCall : stream.next.kind = .call name arguments) :
    Ensures (grammar Hooks.none layers false).expression stream fun node _ =>
      ∃ attributes, node.mixinHead? =
        some (stream.place stream.next.span, ⟨name, arguments, true, attributes⟩) := by
  cases layers with
  | zero => exact .throw
  | succ layers =>
      refine .get_bind (.get_bind ?_)
      simp only [isCall]
      refine Grammar.ensures_advance_bind (.bind (fun _ _ _ => True.intro) fun parts _ _ => ?_)
      dsimp only
      split
      · exact .pure ⟨parts.attributes, rfl⟩
      · exact .pure ⟨parts.attributes, rfl⟩

/-- The token of a declaration becomes a declaration, with the same parameters. -/
theorem ensures_expression_mixin {line : MixinLine} {layers : Nat} {name : String}
    {parameters : Option String} (within : stream.Within line 0)
    (isDeclaration : stream.next.kind = .mixin name parameters) :
    Ensures (grammar Hooks.none layers false).expression stream fun node after =>
      node.mixinHead? =
        some (stream.place stream.next.span, ⟨name, parameters, false, []⟩) ∧
      after.Before line 0 := by
  cases layers with
  | zero => exact .throw
  | succ layers =>
      refine .get_bind (.get_bind ?_)
      simp only [isDeclaration]
      refine Grammar.ensures_advance_bind (.get_bind ?_)
      split
      · have before := (within.inline isDeclaration rfl).before
        refine .bind ((respects_grammar line layers true).block before) fun body after further => ?_
        refine .get_bind (.pure ⟨?_, further⟩)
        have same : after.file = stream.file := further.file.trans within.file.symm
        simp [Node.mixinHead?, Node.mixin?, Node.span, TokenStream.place, same]
      · exact Grammar.ensures_fail

/-- At a declaration or a call a round of the document reads an expression. -/
theorem exists_round_of_mixin (isMixin : stream.next.kind.isMixin = true) {budget : Nat}
    {nodes found : List Node} {after : TokenStream}
    (done : documentNodes inner budget nodes stream = .ok found after) :
    ∃ left node middle, inner.expression stream = .ok node middle ∧
      documentNodes inner left (Grammar.splice nodes node) middle = .ok found after := by
  cases budget with
  | zero => cases done
  | succ budget =>
      have round : documentNodes inner (budget + 1) nodes stream =
          (inner.expression >>= fun node =>
            documentNodes inner budget (Grammar.splice nodes node)) stream := by
        have peeked : peek stream = .ok stream.next stream := rfl
        rw [documentNodes]
        refine (bind_of_ok peeked).trans ?_
        cases kind : stream.next.kind <;> simp [kind, TokenKind.isMixin] at isMixin ⊢
      rw [round] at done
      cases read : inner.expression stream with
      | error stop middle =>
          rw [bind_of_error read] at done
          cases done
      | ok node middle =>
          rw [bind_of_ok read] at done
          exact ⟨budget, node, middle, rfl, done⟩

end

/-- Among some nodes a mixin is declared in one place and then called in another, with whatever
attributes. -/
def Node.DeclareAndCall (declared called : Span × MixinHead) (nodes : List Node) : Prop :=
  ∃ attributes, [declared, (called.1, { called.2 with attributes := attributes })].Sublist
    (nodes.filterMap mixinHead?)

/-- A token's span in a template of some name. -/
def Span.inFile (span : Span) (file : Option String) : Span :=
  { span with file := file <|> span.file }

/-- A declaration and a call behind it that begin lines of a template, outside of all levels, are
nodes of its document, in this order. -/
theorem mixinHeads_of_parse {front between behind : List Token} {declared called : Token}
    {file source : Option String} {document : Document} {before after : Array Event}
    (parsed : parse (front ++ declared :: (between ++ called :: behind)) { file, source } before =
      .ok document after)
    (first : EndLines 0 front) (second : EndLines 0 (front ++ declared :: between))
    {name mixin : String} {parameters arguments : Option String}
    (isDeclaration : declared.kind = .mixin name parameters)
    (isCall : called.kind = .call mixin arguments) :
    Node.DeclareAndCall (declared.span.inFile file, ⟨name, parameters, false, []⟩)
      (called.span.inFile file, ⟨mixin, arguments, true, []⟩) document.nodes := by
  rcases exists_documentNodes_of_parse parsed with ⟨last, read⟩
  let declaration : MixinLine :=
    ⟨file, declared, between ++ called :: behind, by rw [isDeclaration]; rfl⟩
  let call : MixinLine := ⟨file, called, behind, by rw [isCall]; rfl⟩
  -- The rounds of the document up to the declaration, and the one that reads it.
  rcases exists_documentNodes_of_before (respects_grammar declaration _ false)
    ⟨rfl, front, rfl, first⟩ read with ⟨left, earlier, begins, -, fileSame, pending, read⟩
  have next : begins.next = declared := by simp [TokenStream.next, pending, declaration]
  have within : begins.Within call 0 :=
    ⟨fileSame, between, by rw [next]; exact pending, next ▸ first.of_append second⟩
  rcases exists_round_of_mixin (by rw [next]; exact declaration.isMixin) read with
    ⟨_, declares, middle, expression, read⟩
  rcases ensures_expression_mixin within (next ▸ isDeclaration) _ _ expression with
    ⟨declaresHead, further⟩
  -- The rounds up to the call, and the one that reads it.
  rcases exists_documentNodes_of_before (respects_grammar call _ false) further read with
    ⟨_, later, begins', longer, fileSame', pending', read⟩
  have next' : begins'.next = called := by simp [TokenStream.next, pending', call]
  rcases exists_round_of_mixin (by rw [next']; exact call.isMixin) read with
    ⟨_, calls, _, expression', read⟩
  rcases ensures_expression_call (next' ▸ isCall) _ _ expression' with ⟨attributes, callsHead⟩
  have split (nodes : List Node) {node : Node} {head : Span × MixinHead}
      (isHead : node.mixinHead? = some head) : Grammar.splice nodes node = nodes ++ [node] := by
    rcases Node.exists_mixin?_of_mixinHead? isHead with ⟨-, _, isMixin⟩
    exact splice_of_mixin? nodes isMixin
  rw [split _ declaresHead] at longer
  have last := ensures_prefix_documentNodes _ _ _ _ read
  rw [split _ callsHead] at last
  have both : [declares, calls].Sublist document.nodes := by
    have one : [declares].Sublist later := (List.sublist_append_right _ _).trans longer.sublist
    exact (one.append_right [calls]).trans last.sublist
  have heads := both.filterMap Node.mixinHead?
  simp only [List.filterMap_cons, declaresHead, callsHead, List.filterMap_nil] at heads
  refine ⟨attributes, ?_⟩
  simpa [TokenStream.place, Span.inFile, next, next', fileSame, fileSame'] using heads

end Offside
