import Offside.Grammar.Expression
import Offside.Proofs.Finishing.Reading

/-!
# The grammar finishes

One lemma for each rule of the grammar: with enough budget, a rule finishes. Every round of a loop
reads a token unless it is the last one, and no end token lets a loop go on, so that a budget of one
more than the number of tokens is enough for a loop. An expression reads a token before it asks for
anything nested in it, so that a layer for each token and two more are enough for an expression.
-/

namespace Offside

open Computing Parsing TokenStream

variable {stream : TokenStream} {limit budget other : Nat}

theorem exists_eq_succ_of_lt {small large : Nat} (lt : small < large) :
    ∃ less, large = less + 1 :=
  ⟨large - 1, by omega⟩

/-- A run of text begins with text, code or an interpolated tag. -/
def TokenKind.isContent : TokenKind → Bool
  | .text _ | .code .. | .startInterpolation => true
  | _ => false

namespace Grammar

/-- Two grammars finish alike on all streams that are short enough, and what they read is not
nothing. -/
structure FinishBelow (limit : Nat) (inner outer : Grammar) : Prop where
  expression : ∀ stream, stream.Near limit →
    Finish inner.expression outer.expression stream stream.Consumes
  block : ∀ stream, stream.Near limit → Finish inner.block outer.block stream stream.Consumes

/-- Without hooks nothing is done about a token that the grammar does not know. -/
theorem finish_ask_bind {α : Type} {grammar outer : Grammar} {context : HookContext}
    {target : context.Target} {next otherNext : HookOutcome × context.Target → Parsing α}
    {leaves : TokenStream → Prop}
    (declined : Finish (next (.declined, target)) (otherNext (.declined, target)) stream leaves) :
    Finish (Hooks.none.ask grammar context target >>= next)
      (Hooks.none.ask outer context target >>= otherNext) stream leaves :=
  declined

/-! ### Attributes -/

theorem finish_attributeTokens (ending : stream.ending.kind = .eos)
    (enough : stream.pending.length < budget) (enoughOther : stream.pending.length < other)
    (names : Option (List String)) (found : List Attribute) :
    Finish (attributeTokens budget names found) (attributeTokens other names found) stream
      stream.Consumes := by
  have near : stream.Near (stream.pending.length + 1) := ⟨ending, Nat.lt_succ_self _⟩
  let entries (budget : Nat) (state : Option (List String) × List Attribute) :=
    attributeTokens budget state.1 state.2
  refine .loop entries entries Consumes 0 Consumes.trans
    (fun {stream _ _} state near _ _ further => .peek ?_) near enough enoughOther (names, found)
  split
  · next kind =>
      have read : stream.Consumes stream.tail := .tail near.ending (by simp [kind])
      refine .advance (.place fun span => ?_)
      dsimp only
      split
      · split
        · exact .pure_bind (further read (_, _))
        · split
          · exact .fail_bind
          · exact .pure_bind (further read (_, _))
      · exact .pure_bind (further read (_, _))
  · exact .bind (.expect near.ending (by decide)) fun _ _ consumes => .pure consumes

/-- The opening bracket is read before the loop, so that the budget may be one less. -/
theorem finish_attributes (ending : stream.ending.kind = .eos)
    (enough : stream.pending.length ≤ budget) (enoughOther : stream.pending.length ≤ other)
    (names : Option (List String)) :
    Finish (attributes budget names) (attributes other names) stream stream.Consumes := by
  refine .bind (.expect ending (by decide)) fun _ middle consumes => ?_
  have shorter := consumes.length_lt
  exact (finish_attributeTokens (consumes.ends ending) (by omega) (by omega) names []).mono
    fun _ later => consumes.trans_shrinks later.shrinks

theorem finish_attributesIfAny (ending : stream.ending.kind = .eos)
    (enough : stream.pending.length ≤ budget) (enoughOther : stream.pending.length ≤ other) :
    Finish (attributesIfAny budget) (attributesIfAny other) stream stream.Shrinks := by
  refine .peek ?_
  split
  · exact .bind (finish_attributes ending enough enoughOther none) fun _ _ consumes =>
      .pure consumes.shrinks
  · exact .pure .refl

/-! ### Texts -/

section

variable {inner outer : Grammar} (finish : inner.FinishBelow limit outer)

include finish

/-- An interpolation reads its opening token before the expression in it. -/
theorem finish_interpolated (near : stream.Near (limit + 1))
    (opens : stream.next.kind ≠ .eos) :
    Finish (interpolated inner) (interpolated outer) stream stream.Consumes := by
  have consumes : stream.Consumes stream.tail := .tail near.ending opens
  refine .advance (.bind (finish.expression _ (consumes.near near)) fun node middle inside => ?_)
  have read : stream.Consumes middle := consumes.trans_shrinks inside.shrinks
  refine .bind (.expect (read.ends near.ending) (by decide)) fun _ _ closes => ?_
  exact .pure (read.trans_shrinks closes.shrinks)

/-- A round of a run of text reads a token and goes on, or there is no text. -/
theorem finish_textNodes_succ {leaves : TokenStream → Prop} {blockMode : Bool}
    (near : stream.Near (limit + 1))
    (declines : stream.next.kind.isContent = false → leaves stream)
    (further : ∀ {middle : TokenStream}, stream.Consumes middle → ∀ nodes : List Node,
      Finish (textNodes Hooks.none inner blockMode budget nodes)
        (textNodes Hooks.none outer blockMode other nodes) middle leaves)
    (nodes : List Node) :
    Finish (textNodes Hooks.none inner blockMode (budget + 1) nodes)
      (textNodes Hooks.none outer blockMode (other + 1) nodes) stream leaves := by
  refine .peek ?_
  split
  · next kind =>
      exact .advance (.textNode fun node => further (.tail near.ending (by simp [kind])) _)
  · next kind =>
      exact .advance (.place fun span => further (.tail near.ending (by simp [kind])) _)
  · next kind =>
      have read : stream.Consumes stream.tail := .tail near.ending (by simp [kind])
      split
      · refine .advance (.peek ?_)
        split
        · exact .textNode fun node => further read _
        · exact .textNode fun node => further read _
        · exact further read _
      · exact .pure (declines (by simp [kind, TokenKind.isContent]))
  · next kind =>
      exact .bind (finish_interpolated finish near (by simp [kind])) fun node _ read =>
        further read _
  · next text code _ opens =>
      refine finish_ask_bind (.pure (declines ?_))
      unfold TokenKind.isContent
      split
      · next kind => exact absurd kind (text _)
      · next kind => exact absurd kind (code _ _ _)
      · next kind => exact absurd kind opens
      · rfl

theorem finish_textNodes (near : stream.Near (limit + 1)) (enough : stream.pending.length < budget)
    (enoughOther : stream.pending.length < other) (blockMode : Bool) (nodes : List Node) :
    Finish (textNodes Hooks.none inner blockMode budget nodes)
      (textNodes Hooks.none outer blockMode other nodes) stream stream.Shrinks :=
  .loop (textNodes Hooks.none inner blockMode) (textNodes Hooks.none outer blockMode)
    Shrinks 0 Shrinks.of_consumes
    (fun nodes near _ _ further =>
      finish_textNodes_succ finish near (fun _ => .refl) further nodes)
    near enough enoughOther nodes

theorem finish_text (near : stream.Near (limit + 1)) (enough : stream.pending.length < budget)
    (enoughOther : stream.pending.length < other) (blockMode : Bool) :
    Finish (text Hooks.none inner blockMode budget) (text Hooks.none outer blockMode other) stream
      stream.Shrinks := by
  refine .peek (.place fun span => ?_)
  refine .bind (finish_textNodes finish near enough enoughOther blockMode []) fun nodes _ read => ?_
  split
  · exact .pure read
  · exact .pure read

/-- A run of text that begins with text, code or an interpolated tag reads it first. -/
theorem finish_text_of_content (near : stream.Near (limit + 1))
    (begins : stream.next.kind.isContent) (enough : stream.pending.length < budget)
    (enoughOther : stream.pending.length < other) (blockMode : Bool) :
    Finish (text Hooks.none inner blockMode budget) (text Hooks.none outer blockMode other) stream
      stream.Consumes := by
  rcases exists_eq_succ_of_lt enough with ⟨budget, rfl⟩
  rcases exists_eq_succ_of_lt enoughOther with ⟨other, rfl⟩
  have further {middle : TokenStream} (read : stream.Consumes middle) (nodes : List Node) :
      Finish (textNodes Hooks.none inner blockMode budget nodes)
        (textNodes Hooks.none outer blockMode other nodes) middle stream.Consumes := by
    have shorter := read.length_lt
    exact (finish_textNodes finish (read.shrinks.near near) (by omega) (by omega) blockMode
      nodes).mono fun _ later => read.trans_shrinks later
  have whole : Finish (textNodes Hooks.none inner blockMode (budget + 1) [])
      (textNodes Hooks.none outer blockMode (other + 1) []) stream stream.Consumes :=
    finish_textNodes_succ finish near (fun declines => absurd begins (by simp [declines])) further
      []
  refine .peek (.place fun span => whole.bind fun nodes _ read => ?_)
  split
  · exact .pure read
  · exact .pure read

theorem finish_htmlRun (near : stream.Near limit) (enough : stream.pending.length < budget)
    (enoughOther : stream.pending.length < other) (run : HtmlRun) :
    Finish (htmlRun inner budget run) (htmlRun outer other run) stream stream.Shrinks := by
  refine .loop (htmlRun inner) (htmlRun outer) Shrinks 0 Shrinks.of_consumes
    (fun run near _ _ further => .peek ?_) near enough enoughOther run
  split
  · next kind =>
      exact .advance (.place fun span => further (.tail near.ending (by simp [kind])) _)
  · exact .bind (finish.block _ near) fun block _ read => further read _
  · next kind => exact .advance (further (.tail near.ending (by simp [kind])) _)
  · exact .pure .refl

/-- The first line to copy is read before anything that is indented below it. -/
theorem finish_html {value : String} (near : stream.Near (limit + 1))
    (begins : stream.next.kind = .html value) (enough : stream.pending.length < budget)
    (enoughOther : stream.pending.length < other) :
    Finish (html inner budget) (html outer other) stream stream.Consumes := by
  rcases exists_eq_succ_of_lt enough with ⟨budget, rfl⟩
  rcases exists_eq_succ_of_lt enoughOther with ⟨other, rfl⟩
  have read : stream.Consumes stream.tail := .tail near.ending (by simp [begins])
  have shorter := read.length_lt
  refine .peek ?_
  rw [begins]
  refine .advance (.place fun span => ?_)
  exact (finish_htmlRun finish (read.near near) (by omega) (by omega) _).mono
    fun _ later => read.trans_shrinks later

theorem finish_textBlockNodes (near : stream.Near (limit + 1))
    (enough : stream.pending.length < budget) (enoughOther : stream.pending.length < other)
    (block : Document) :
    Finish (textBlockNodes Hooks.none inner budget block)
      (textBlockNodes Hooks.none outer other block) stream stream.Consumes := by
  refine .loop (textBlockNodes Hooks.none inner) (textBlockNodes Hooks.none outer) Consumes 0
    Consumes.trans (fun block near _ _ further => .peek ?_) near enough enoughOther block
  split
  · next kind => exact .advance (.pure (.tail near.ending (by simp [kind])))
  · next kind =>
      exact .advance (.textNode fun node => further (.tail near.ending (by simp [kind])) _)
  · next kind =>
      exact .advance (.textNode fun node => further (.tail near.ending (by simp [kind])) _)
  · next kind =>
      exact .bind (finish_interpolated finish near (by simp [kind])) fun node _ read =>
        further read _
  · next kind =>
      exact .advance (.place fun span => further (.tail near.ending (by simp [kind])) _)
  · exact .fail
  · exact finish_ask_bind (.peek .fail)

theorem finish_textBlockIfAny (near : stream.Near (limit + 1))
    (enough : stream.pending.length < budget) (enoughOther : stream.pending.length < other) :
    Finish (textBlockIfAny Hooks.none inner budget) (textBlockIfAny Hooks.none outer other) stream
      stream.Shrinks := by
  refine .peek ?_
  split
  · next kind =>
      have read : stream.Consumes stream.tail := .tail near.ending (by simp [kind])
      have shorter := read.length_lt
      refine .advance (.place fun span => ?_)
      refine .bind (finish_textBlockNodes finish (read.shrinks.near near) (by omega) (by omega) _)
        fun block _ later => .pure (read.shrinks.trans later.shrinks)
  · exact .pure .refl

theorem finish_textBlockAt (near : stream.Near (limit + 1))
    (enough : stream.pending.length < budget) (enoughOther : stream.pending.length < other)
    (span : Span) :
    Finish (textBlockAt Hooks.none inner budget span) (textBlockAt Hooks.none outer other span)
      stream stream.Shrinks :=
  .bind (finish_textBlockIfAny finish near enough enoughOther) fun _ _ read => .pure read

/-! ### Tags -/

omit finish in
/-- A round of the attributes of a tag reads a token and goes on, or there are no more
attributes. -/
theorem finish_tagAttributes_succ {leaves : TokenStream → Prop} {seenList : Bool}
    (ending : stream.ending.kind = .eos)
    (enough : stream.pending.length ≤ budget) (enoughOther : stream.pending.length ≤ other)
    (declines : (∀ value, stream.next.kind ≠ .id value) →
      (∀ value, stream.next.kind ≠ .className value) → leaves stream)
    (further : ∀ {middle : TokenStream}, stream.Consumes middle → ∀ (seenList : Bool)
      (parts : TagParts),
      Finish (tagAttributes Hooks.none inner budget seenList parts)
        (tagAttributes Hooks.none outer other seenList parts) middle leaves)
    (parts : TagParts) :
    Finish (tagAttributes Hooks.none inner (budget + 1) seenList parts)
      (tagAttributes Hooks.none outer (other + 1) seenList parts) stream leaves := by
  refine .peek ?_
  split
  · next kind =>
      have read : stream.Consumes stream.tail := .tail ending (by simp [kind])
      refine .advance ?_
      split
      · exact .fail_bind
      · exact .pure_bind (further read _ _)
  · next kind => exact .advance (.place fun span => further (.tail ending (by simp [kind])) _ _)
  · have listed {noted : TokenStream} (ending : noted.ending.kind = .eos)
        (same : noted.pending = stream.pending) (ends : noted.ending = stream.ending) :
        Finish (attributes budget (some parts.names)) (attributes other (some parts.names))
          noted stream.Consumes :=
      (finish_attributes ending (same ▸ enough) (same ▸ enoughOther) _).mono
        fun _ read => ⟨read.ending.trans ends, same ▸ read.pending⟩
    split
    · refine .modify (.bind (listed ending rfl rfl) ?_)
      rintro ⟨names, found⟩ _ read
      exact further read _ _
    · refine .bind (listed ending rfl rfl) ?_
      rintro ⟨names, found⟩ _ read
      exact further read _ _
  · next id className _ => exact finish_ask_bind (.pure (declines id className))

omit finish in
theorem finish_tagAttributes (ending : stream.ending.kind = .eos)
    (enough : stream.pending.length < budget) (enoughOther : stream.pending.length < other)
    (seenList : Bool) (parts : TagParts) :
    Finish (tagAttributes Hooks.none inner budget seenList parts)
      (tagAttributes Hooks.none outer other seenList parts) stream stream.Shrinks := by
  have near : stream.Near (stream.pending.length + 1) := ⟨ending, Nat.lt_succ_self _⟩
  refine .loop (fun budget state => tagAttributes Hooks.none inner budget state.1 state.2)
    (fun budget state => tagAttributes Hooks.none outer budget state.1 state.2)
    Shrinks 0 Shrinks.of_consumes (fun state near enough enoughOther further => ?_) near enough
    enoughOther (seenList, parts)
  exact finish_tagAttributes_succ near.ending enough enoughOther (fun _ _ => .refl)
    (fun read seenList parts => further read (seenList, parts)) state.2

theorem finish_tagContent (near : stream.Near limit) (enough : stream.pending.length < budget)
    (enoughOther : stream.pending.length < other) (selfClosingAllowed : Bool) (parts : TagParts) :
    Finish (tagContent Hooks.none inner budget selfClosingAllowed parts)
      (tagContent Hooks.none outer other selfClosingAllowed parts) stream stream.Shrinks := by
  have longer : stream.Near (limit + 1) := ⟨near.ending, Nat.lt_succ_of_lt near.length⟩
  refine .peek ?_
  split
  · exact .bind (finish_text finish longer enough enoughOther false) fun _ _ read => .pure read
  · exact .bind (finish_text finish longer enough enoughOther false) fun _ _ read => .pure read
  · refine .advance (.bind (finish.expression _ (Shrinks.tail.near near)) fun node _ read => ?_)
    split
    · exact .pure (Shrinks.tail.trans read.shrinks)
    · exact .pure (Shrinks.tail.trans read.shrinks)
  · exact .pure .refl
  · exact .pure .refl
  · exact .pure .refl
  · exact .pure .refl
  · exact .pure .refl
  · exact .pure .refl
  · split
    · exact .advance (.pure .tail)
    · exact finish_ask_bind (.peek .fail)
  · exact finish_ask_bind (.peek .fail)

omit finish in
theorem finish_skipNewlines (ending : stream.ending.kind = .eos)
    (enough : stream.pending.length < budget) (enoughOther : stream.pending.length < other) :
    Finish (skipNewlines budget) (skipNewlines other) stream stream.Shrinks := by
  have near : stream.Near (stream.pending.length + 1) := ⟨ending, Nat.lt_succ_self _⟩
  refine .loop (fun budget _ => skipNewlines budget) (fun budget _ => skipNewlines budget)
    Shrinks 0 Shrinks.of_consumes (fun _ near _ _ further => .peek ?_) near enough enoughOther ()
  split
  · next kind => exact .advance (further (.tail near.ending (by simp [kind])) ())
  · exact .pure .refl

omit finish in
/-- An id or a class is read before anything that follows it. -/
theorem finish_tagAttributes_of_selector {value : String} (ending : stream.ending.kind = .eos)
    (begins : stream.next.kind = .id value ∨ stream.next.kind = .className value)
    (enough : stream.pending.length < budget) (enoughOther : stream.pending.length < other)
    (seenList : Bool) (parts : TagParts) :
    Finish (tagAttributes Hooks.none inner budget seenList parts)
      (tagAttributes Hooks.none outer other seenList parts) stream stream.Consumes := by
  rcases exists_eq_succ_of_lt enough with ⟨budget, rfl⟩
  rcases exists_eq_succ_of_lt enoughOther with ⟨other, rfl⟩
  refine finish_tagAttributes_succ ending (Nat.le_of_lt_succ enough)
    (Nat.le_of_lt_succ enoughOther) (fun id className => ?_) (fun read seenList parts => ?_) parts
  · rcases begins with kind | kind
    · exact absurd kind (id value)
    · exact absurd kind (className value)
  · have shorter := read.length_lt
    exact (finish_tagAttributes (read.ends ending) (by omega) (by omega) seenList parts).mono
      fun _ later => read.trans_shrinks later

/-- Everything behind a name, which was read in front or is that of a tag without a name, whose
first id or class is read before anything else. -/
theorem finish_tag {start : TokenStream} (near : start.Near (limit + 1))
    (enough : start.pending.length < budget) (enoughOther : start.pending.length < other)
    {span : Span}
    (head : Finish (tagAttributes Hooks.none inner budget false (.start span))
      (tagAttributes Hooks.none outer other false (.start span)) stream start.Consumes)
    (selfClosingAllowed : Bool) :
    Finish (tag Hooks.none inner budget selfClosingAllowed span)
      (tag Hooks.none outer other selfClosingAllowed span) stream start.Consumes := by
  refine .bind head fun parts middle read => ?_
  refine .peek ?_
  dsimp only
  split
  case' h_1 =>
    refine .advance ?_
    replace read := read.trans_shrinks .tail
    generalize middle.tail = middle at read ⊢
  -- With a dot or without one, the rest of the tag is read in the same way.
  all_goals
    have shorter := read.length_lt
    refine .pure_bind (.bind (finish_tagContent finish (read.near near) (by omega) (by omega)
      selfClosingAllowed _) fun parts behind content => ?_)
    have fewer := content.pending.length_le
    have nearBehind : behind.Near limit := content.near (read.near near)
    refine .bind (finish_skipNewlines nearBehind.ending (by omega) (by omega)) ?_
    intro _ last skips
    have fewest := skips.pending.length_le
    have nearLast : last.Near limit := skips.near nearBehind
    have readAll : start.Consumes last := (read.trans_shrinks content).trans_shrinks skips
    split
    · refine .bind (finish_textBlockAt finish ⟨nearLast.ending, Nat.lt_succ_of_lt nearLast.length⟩
        (by omega) (by omega) _) fun block _ body => .pure (readAll.trans_shrinks body)
    · refine .peek ?_
      split
      · exact .bind (finish.block _ nearLast) fun block _ body =>
          .pure (readAll.trans_shrinks body.shrinks)
      · exact .pure readAll

/-- A tag or a call whose name was read. -/
theorem finish_tag_of_name (near : stream.Near (limit + 1))
    (enough : stream.pending.length < budget) (enoughOther : stream.pending.length < other)
    (named : stream.next.kind ≠ .eos) (selfClosingAllowed : Bool) (span : Span) :
    Finish (tag Hooks.none inner budget selfClosingAllowed span)
      (tag Hooks.none outer other selfClosingAllowed span) stream.tail stream.Consumes := by
  have read : stream.Consumes stream.tail := .tail near.ending named
  have shorter := read.length_lt
  refine finish_tag finish near enough enoughOther ?_ selfClosingAllowed
  exact (finish_tagAttributes (read.ends near.ending) (by omega) (by omega) _ _).mono
    fun _ later => read.trans_shrinks later

/-! ### Blocks, filters and files -/

theorem finish_blockNodes (near : stream.Near limit) (enough : stream.pending.length + 1 < budget)
    (enoughOther : stream.pending.length + 1 < other) (block : Document) :
    Finish (blockNodes inner budget block) (blockNodes outer other block) stream
      stream.Consumes := by
  refine .loop (blockNodes inner) (blockNodes outer) Consumes 1 Consumes.trans
    (fun {stream _ _} block near enough enoughOther further => .peek ?_) near enough enoughOther
    block
  have longer : stream.Near (limit + 1) := ⟨near.ending, Nat.lt_succ_of_lt near.length⟩
  split
  · next kind => exact .advance (.pure (.tail near.ending (by simp [kind])))
  · next kind => exact .advance (further (.tail near.ending (by simp [kind])) _)
  · next kind =>
      exact .bind (finish_html finish longer kind enough enoughOther) fun nodes _ read =>
        further read _
  · exact .bind (finish.expression _ near) fun node _ read => further read _

theorem finish_indentedBlock (near : stream.Near (limit + 1))
    (enough : stream.pending.length < budget) (enoughOther : stream.pending.length < other) :
    Finish (indentedBlock inner budget) (indentedBlock outer other) stream stream.Consumes := by
  refine .bind (.expect near.ending (by decide)) fun token middle read => .place fun span => ?_
  have shorter := read.length_lt
  exact (finish_blockNodes finish (read.near near) (by omega) (by omega) _).mono
    fun _ later => read.trans_shrinks later.shrinks

theorem finish_filter (near : stream.Near (limit + 1)) (enough : stream.pending.length + 1 < budget)
    (enoughOther : stream.pending.length + 1 < other) (name : String) (span : Span) :
    Finish (filter Hooks.none inner budget name span) (filter Hooks.none outer other name span)
      stream stream.Shrinks := by
  induction budget generalizing stream other name span with
  | zero => cases enough
  | succ budget ih =>
      rcases exists_eq_succ_of_lt enoughOther with ⟨other, rfl⟩
      refine .bind (finish_attributesIfAny near.ending (by omega) (by omega))
        fun found middle read => ?_
      have nearMiddle := read.near near
      have fewer := read.pending.length_le
      refine .peek ?_
      dsimp only
      split
      · exact .advance (.place fun placed => .textNode fun node => .pure_bind
          (.pure (read.trans .tail)))
      · next kind =>
          have nested : middle.Consumes middle.tail := .tail nearMiddle.ending (by simp [kind])
          have shorter := nested.length_lt
          refine .advance (.place fun placed => .bind (ih (nested.shrinks.near nearMiddle)
            (by omega) (by omega) _ _) fun node _ behind => ?_)
          exact .pure_bind (.pure ((read.trans nested.shrinks).trans behind))
      · exact .bind (finish_textBlockAt finish nearMiddle (by omega) (by omega) _)
          fun body _ behind => .pure (read.trans behind)

omit finish in
theorem finish_includeFilters (ending : stream.ending.kind = .eos)
    (enough : stream.pending.length < budget) (enoughOther : stream.pending.length < other)
    (found : List IncludeFilter) :
    Finish (includeFilters budget found) (includeFilters other found) stream stream.Shrinks := by
  have near : stream.Near (stream.pending.length + 1) := ⟨ending, Nat.lt_succ_self _⟩
  refine .loop includeFilters includeFilters Shrinks 0 Shrinks.of_consumes
    (fun {stream _ _} found near enough enoughOther further => .peek ?_) near enough enoughOther
    found
  split
  · next kind =>
      have read : stream.Consumes stream.tail := .tail near.ending (by simp [kind])
      have shorter := read.length_lt
      refine .advance (.bind (finish_attributesIfAny (read.ends near.ending) (by omega)
        (by omega)) fun entries middle listed => .place fun span => ?_)
      exact further (read.trans_shrinks listed) _
  · exact .pure .refl

theorem finish_inclusion (near : stream.Near limit) (enough : stream.pending.length < budget)
    (enoughOther : stream.pending.length < other) (span : Span) :
    Finish (inclusion inner budget span) (inclusion outer other span) stream stream.Shrinks := by
  refine .bind (finish_includeFilters near.ending enough enoughOther []) ?_
  intro filters middle read
  refine .bind (.expectPath (read.ends near.ending)) ?_
  rintro ⟨pathToken, path⟩ behind named
  have readBoth : stream.Shrinks behind := read.trans named.shrinks
  refine .place fun placed => .peek ?_
  extract_lets indented
  split
  · split
    · exact .bind (finish.block _ (readBoth.near near)) fun body _ inside =>
        .pure (readBoth.trans inside.shrinks)
    · exact .pure_bind (.pure readBoth)
  · split
    · exact .fail
    · exact .pure readBoth

theorem finish_mixin (near : stream.Near limit) (name : String) (arguments : Option String)
    (start : Span) :
    Finish (mixin inner name arguments start) (mixin outer name arguments start) stream
      stream.Shrinks := by
  refine .peek ?_
  split
  · exact .bind (finish.block _ near) fun body _ inside => .place fun span => .pure inside.shrinks
  · exact .fail

end

/-! ### Expressions -/

section

variable {layer outerLayer : Bool → Grammar}
  (finish : ∀ inMixin, (layer inMixin).FinishBelow limit (outerLayer inMixin))

include finish

/-- An expression reads its first token before it asks for anything nested in it. -/
theorem finish_expressionRule (near : stream.Near (limit + 1))
    (enough : stream.pending.length + 1 < budget) (enoughOther : stream.pending.length + 1 < other)
    (inMixin : Bool) :
    Finish (expressionRule Hooks.none layer inMixin budget)
      (expressionRule Hooks.none outerLayer inMixin other) stream stream.Consumes := by
  have inner := finish inMixin
  have enoughTag : stream.pending.length < budget := by omega
  have enoughTagOther : stream.pending.length < other := by omega
  refine .peek (.place fun span => ?_)
  split
  · next kind =>
      have named : stream.next.kind ≠ .eos := by simp [kind]
      exact .advance (.bind (finish_tag_of_name inner near enoughTag enoughTagOther named true span)
        fun parts _ read => .pure read)
  · next value kind =>
      exact .bind (finish_tag inner near enoughTag enoughTagOther
        (finish_tagAttributes_of_selector near.ending (.inl kind) enoughTag enoughTagOther false _)
        true) fun parts _ read => .pure read
  · next value kind =>
      exact .bind (finish_tag inner near enoughTag enoughTagOther
        (finish_tagAttributes_of_selector near.ending (.inr kind) enoughTag enoughTagOther false _)
        true) fun parts _ read => .pure read
  · next kind =>
      have read : stream.Consumes stream.tail := .tail near.ending (by simp [kind])
      exact .advance ((finish_mixin (finish true) (read.near near) _ _ _).mono
        fun _ later => read.trans_shrinks later)
  · next kind =>
      have read : stream.Consumes stream.tail := .tail near.ending (by simp [kind])
      refine .advance (.peek ?_)
      split
      · refine .bind (inner.block _ (read.near near)) fun body _ later => ?_
        exact .pure_bind (.pure (read.trans_shrinks later.shrinks))
      · exact .pure_bind (.pure read)
  · next kind =>
      have read : stream.Consumes stream.tail := .tail near.ending (by simp [kind])
      refine .advance ?_
      split
      · exact .pure read
      · exact .fail
  · next kind =>
      have read : stream.Consumes stream.tail := .tail near.ending (by simp [kind])
      refine .advance (.bind (.expectPath (read.ends near.ending)) ?_)
      rintro ⟨pathToken, path⟩ _ later
      exact .place fun span => .pure (read.trans_shrinks later.shrinks)
  · next kind =>
      have read : stream.Consumes stream.tail := .tail near.ending (by simp [kind])
      have shorter := read.length_lt
      exact .advance ((finish_inclusion inner (read.near near) (by omega) (by omega) _).mono
        fun _ later => read.trans_shrinks later)
  · next kind => exact .advance (.pure (.tail near.ending (by simp [kind])))
  · next kind =>
      have read : stream.Consumes stream.tail := .tail near.ending (by simp [kind])
      have shorter := read.length_lt
      exact .advance ((finish_filter inner (read.shrinks.near near) (by omega) (by omega) _ _).mono
        fun _ later => read.trans_shrinks later)
  · next kind =>
      have read : stream.Consumes stream.tail := .tail near.ending (by simp [kind])
      have shorter := read.length_lt
      refine .advance (.bind (finish_textBlockIfAny inner (read.shrinks.near near) (by omega)
        (by omega)) fun body _ later => ?_)
      have readAll := read.trans_shrinks later
      split
      · exact .pure readAll
      · exact .pure readAll
  · next kind =>
      exact finish_text_of_content inner near (by simp [kind, TokenKind.isContent]) enoughTag
        enoughTagOther true
  · next kind =>
      exact finish_text_of_content inner near (by simp [kind, TokenKind.isContent]) enoughTag
        enoughTagOther true
  · next kind =>
      exact finish_text_of_content inner near (by simp [kind, TokenKind.isContent]) enoughTag
        enoughTagOther true
  · next kind =>
      exact .bind (finish_html inner near kind enoughTag enoughTagOther) fun nodes _ read =>
        .pure read
  · next kind =>
      have read : stream.Consumes stream.tail := .tail near.ending (by simp [kind])
      have shorter := read.length_lt
      refine .advance (.bind (finish_textBlockAt inner (read.shrinks.near near) (by omega)
        (by omega) _) fun body _ later => .pure (read.trans_shrinks later))
  · next kind =>
      refine .advance (.bind (finish_tag_of_name inner near enoughTag enoughTagOther
        (by simp [kind]) false span) fun parts _ read => ?_)
      dsimp only
      split
      · exact .pure read
      · exact .pure read
  · next kind =>
      exact .advance (.bind (finish_tag_of_name inner near enoughTag enoughTagOther
        (by simp [kind]) true span) fun parts _ read => .pure read)
  · next kind => exact .advance (.pure (.tail near.ending (by simp [kind])))
  · exact finish_ask_bind (.peek .fail)

end

end Grammar

end Offside
