import Offside.Proofs.Inline.Scanning
import Offside.Proofs.Layout.RoundTrip

/-!
# From the content of a line to a page

An element with running text on its line becomes a page that holds the text: printing the pieces of
the text and rendering the print gives the pieces back, however deep they are nested. The tokens
that stand for a text of a page are read as nodes that write this text; an interpolated tag is read
by the next layer of the grammar, whatever its depth.
-/

namespace Offside

open Computing Html Parsing Rendering

/-- Where the globals are in sight, a node writes a text. It is no block, which would be dissolved
into its nodes. -/
structure WritesNode (globals : List (String × String)) (node : Node) (text : String) : Prop where
  finished : node.Has .finished
  noBlock : ∀ span children, node ≠ .branch span .block children
  visited : ∀ {limit : Nat} {deeper : Deeper} {block : Rendering Unit} {machine : Machine},
    (∀ name, machine.lookup? name = globals.lookup name) →
      visit limit deeper block node machine = .ok () (machine.write text)

/-- Where the globals are in sight, some nodes write a text. -/
structure Writes (globals : List (String × String)) (nodes : List Node) (page : String) : Prop where
  finished : Node.HaveAll .finished nodes
  noBlock : ∀ node ∈ nodes, ∀ span children, node ≠ .branch span .block children
  visited : ∀ {limit : Nat} {deeper : Deeper} {block : Rendering Unit} {machine : Machine},
    (∀ name, machine.lookup? name = globals.lookup name) →
      visitAll limit deeper block nodes machine = .ok () (machine.write page)

section

variable {globals : List (String × String)} {node : Node} {nodes : List Node} {text page : String}
  {span : Span}

theorem Writes.nil : Writes globals [] "" where
  finished := trivial
  noBlock := by simp
  visited _ := by
    rw [write_empty]
    rfl

theorem Writes.cons (first : WritesNode globals node text) (following : Writes globals nodes page) :
    Writes globals (node :: nodes) (text ++ page) where
  finished := ⟨first.finished, following.finished⟩
  noBlock := List.forall_mem_cons.mpr ⟨first.noBlock, following.noBlock⟩
  visited {limit deeper block machine} sees := by
    -- Writing changes no variable.
    have still : ∀ name, (machine.write text).lookup? name = globals.lookup name := sees
    unfold visitAll
    refine (bind_of_ok (first.visited sees)).trans ((following.visited still).trans ?_)
    rw [write_write]

theorem writesNode_text : WritesNode globals (.leaf span (.text text false)) text where
  finished := by simp
  noBlock := by simp
  visited _ := rfl

theorem writesNode_code {name value : String} {escaped : Bool}
    (bound : globals.lookup name = some value) :
    WritesNode globals (.leaf span (.code name true escaped true)) (written escaped value) where
  finished := by simp
  noBlock := by simp
  visited {limit deeper block machine} sees := by
    have found : lookup name span machine = .ok value machine := by
      simp [lookup, get_bind_eq, sees, bound, pure, EStateM.pure]
    exact bind_of_ok found

theorem writesNode_tag {name : ElementName} (inside : Writes globals nodes page) :
    WritesNode globals (tagNode name.value span nodes)
      ("<" ++ name.value ++ ">" ++ page ++ "</" ++ name.value ++ ">") where
  finished := ⟨⟨by simp, by simp⟩, inside.finished⟩
  noBlock := by simp [tagNode]
  visited sees := element_eq (inside.visited sees)

end

namespace Grammar

section

variable {inner : Grammar} {stream : TokenStream} {budget : Nat} {before : List Node}
  {token close : Token} {rest : List Token}

theorem textNodes_of_code {expression : String} {buffered escaped : Bool}
    (pending : stream.pending = token :: rest)
    (kind : token.kind = .code expression buffered escaped) :
    textNodes Hooks.none inner false (budget + 1) before stream =
      textNodes Hooks.none inner false budget
        (before ++ [.leaf (stream.place token.span) (.code expression buffered escaped true)])
        { stream with pending := rest } := by
  have here : stream.next = token := by simp [TokenStream.next, pending]
  simp only [textNodes, peek_bind, here, kind, advance_bind, pending, List.tail_cons]
  rfl

theorem textNodes_of_interpolation {node : Node} (pending : stream.pending = token :: rest)
    (kind : token.kind = .startInterpolation) {others : List Token}
    (read : inner.expression { stream with pending := rest } =
      .ok node { stream with pending := close :: others })
    (closes : close.kind = .endInterpolation) :
    textNodes Hooks.none inner false (budget + 1) before stream =
      textNodes Hooks.none inner false budget (before ++ [node])
        { stream with pending := others } := by
  have here : stream.next = token := by simp [TokenStream.next, pending]
  have named : close.name = "end-interpolation" := by simp [Token.name, closes, TokenKind.name]
  have behind : expect "end-interpolation" { stream with pending := close :: others } =
      .ok close { stream with pending := others } := by
    have closing : TokenStream.next { stream with pending := close :: others } = close := rfl
    simp only [expect, peek_bind, closing, named, if_true]
    rfl
  have whole : interpolated inner stream = .ok node { stream with pending := others } := by
    simp only [interpolated, advance_bind, pending, List.tail_cons]
    exact (bind_of_ok read).trans (bind_of_ok behind)
  simp only [textNodes, peek_bind, here, kind]
  exact bind_of_ok whole

theorem splice_of_ne_block {node : Node}
    (noBlock : ∀ span children, node ≠ .branch span .block children) :
    splice before node = before ++ [node] := by
  unfold splice
  split
  · next span children => exact absurd rfl (noBlock span children)
  · rfl

/-- A run of text is one node, or a block, which is dissolved into its nodes. -/
theorem exists_text_eq {nodes : List Node} {after : TokenStream}
    (read : textNodes Hooks.none inner false budget [] stream = .ok nodes after)
    (noBlock : ∀ node ∈ nodes, ∀ span children, node ≠ .branch span .block children) :
    ∃ node, text Hooks.none inner false budget stream = .ok node after ∧
      ∀ before, splice before node = before ++ nodes := by
  simp only [text, peek_bind, place_bind, bind_of_ok read]
  split
  · next node => exact ⟨node, rfl, fun before => splice_of_ne_block (noBlock node (by simp))⟩
  · exact ⟨_, rfl, fun before => rfl⟩

end

/-- What stands behind a run of text: the end of the whole text, or of the tag it is in. -/
def EndsRun (kind : TokenKind) : Prop :=
  kind = .eos ∨ kind = .endInterpolation

theorem EndsRun.endsTag {kind : TokenKind} (ends : EndsRun kind) : EndsTag kind := by
  rcases ends with rfl | rfl <;> trivial

/-- In a run of text, tokens of some kinds are read as a node that writes a text, in any layer with
enough others below it. -/
def ReadsNode (globals : List (String × String)) (kinds : List TokenKind) (text : String) : Prop :=
  ∀ (layers budget : Nat) (inMixin : Bool) (before : List Node) {stream : TokenStream}
    {tokens rest : List Token}, kinds.length < layers → stream.pending = tokens ++ rest →
    tokens.map Token.kind = kinds →
    ∃ node, WritesNode globals node text ∧
      textNodes Hooks.none (grammar Hooks.none layers inMixin) false (budget + 1) before stream =
        textNodes Hooks.none (grammar Hooks.none layers inMixin) false budget (before ++ [node])
          { stream with pending := rest }

/-- Tokens of some kinds are read as a run of text, whose nodes write a text. -/
def ReadsRun (globals : List (String × String)) (kinds : List TokenKind) (page : String) : Prop :=
  ∀ (layers budget : Nat) (inMixin : Bool) (before : List Node) {stream : TokenStream}
    {tokens rest : List Token} {last : Token}, kinds.length < layers → kinds.length < budget →
    stream.pending = tokens ++ last :: rest → tokens.map Token.kind = kinds →
    EndsRun last.kind →
    ∃ nodes, Writes globals nodes page ∧
      textNodes Hooks.none (grammar Hooks.none layers inMixin) false budget before stream =
        .ok (before ++ nodes) { stream with pending := last :: rest }

section

variable {globals : List (String × String)} {kinds others : List TokenKind} {text page : String}

theorem readsRun_nil : ReadsRun globals [] "" := by
  intro layers budget inMixin before stream tokens rest last _ enough pending spelled ends
  rcases Nat.exists_eq_add_of_lt enough with ⟨budget, rfl⟩
  rw [List.map_eq_nil_iff.mp spelled, List.nil_append] at pending
  have here : stream.next = last := by simp [TokenStream.next, pending]
  refine ⟨[], .nil, ?_⟩
  rw [List.append_nil, ← pending]
  exact textNodes_of_ends _ _ before (here ▸ ends.endsTag)

theorem ReadsNode.readsRun (first : ReadsNode globals kinds text) (someKinds : kinds ≠ [])
    (following : ReadsRun globals others page) :
    ReadsRun globals (kinds ++ others) (text ++ page) := by
  intro layers budget inMixin before stream tokens rest last deep enough pending spelled ends
  rcases List.map_eq_append_iff.mp spelled with ⟨front, behind, rfl, frontKinds, behindKinds⟩
  rw [List.append_assoc] at pending
  have positive := List.length_pos_iff.mpr someKinds
  rw [List.length_append] at deep enough
  rcases Nat.exists_eq_add_of_le' (by omega : 1 ≤ budget) with ⟨budget, rfl⟩
  rcases first layers budget inMixin before (by omega) pending frontKinds with ⟨node, writes, read⟩
  have pendingBehind : TokenStream.pending { stream with pending := behind ++ last :: rest } =
      behind ++ last :: rest := rfl
  rcases following layers budget inMixin (before ++ [node]) (by omega) (by omega) pendingBehind
    behindKinds ends with ⟨nodes, writesBehind, readBehind⟩
  refine ⟨node :: nodes, .cons writes writesBehind, ?_⟩
  rw [List.append_cons]
  exact read.trans readBehind

theorem readsNode_text (value : String) : ReadsNode globals [.text value] value := by
  intro layers budget inMixin before stream tokens rest _ pending spelled
  rcases List.map_eq_cons_iff.mp spelled with ⟨token, others, rfl, kind, none⟩
  rw [List.map_eq_nil_iff.mp none] at pending
  exact ⟨_, writesNode_text, textNodes_of_text _ _ before pending kind⟩

theorem readsNode_code {name value : String} (escaped : Bool)
    (bound : globals.lookup name = some value) :
    ReadsNode globals [.code name true escaped] (written escaped value) := by
  intro layers budget inMixin before stream tokens rest _ pending spelled
  rcases List.map_eq_cons_iff.mp spelled with ⟨token, others, rfl, kind, none⟩
  rw [List.map_eq_nil_iff.mp none] at pending
  exact ⟨_, writesNode_code bound, textNodes_of_code pending kind⟩

/-- The content of a tag is what stands behind its name. -/
theorem exists_tagContent_eq_of_readsRun (inside : ReadsRun globals kinds page)
    (textFirst : TextFirst kinds) {layers : Nat} (inMixin : Bool) (span : Span)
    {stream : TokenStream} {tokens rest : List Token} {last : Token}
    (deep : kinds.length < layers) (pending : stream.pending = tokens ++ last :: rest)
    (spelled : tokens.map Token.kind = kinds) (ends : EndsRun last.kind) :
    BeginsContent stream.next.kind ∧ ∃ nodes, Writes globals nodes page ∧
      tagContent Hooks.none (grammar Hooks.none layers inMixin) layers true (.start span) stream =
        .ok (filledParts span nodes) { stream with pending := last :: rest } := by
  rcases inside layers layers inMixin [] deep deep pending spelled ends with ⟨nodes, writes, read⟩
  rw [List.nil_append] at read
  -- An empty tag has no run of text at all; every other one begins with a text.
  cases tokens with
  | nil =>
      rw [List.nil_append] at pending
      have here : stream.next = last := by simp [TokenStream.next, pending]
      have endsHere : EndsTag stream.next.kind := here ▸ ends.endsTag
      rcases Nat.exists_eq_add_of_lt deep with ⟨spare, rfl⟩
      rcases EStateM.Result.ok.inj (read.symm.trans (textNodes_of_ends _ _ [] endsHere))
        with ⟨rfl, _⟩
      refine ⟨.inl endsHere, [], writes, ?_⟩
      rw [← pending]
      exact tagContent_of_ends _ _ span endsHere
  | cons token tokens =>
      have here : stream.next = token := by simp [TokenStream.next, pending]
      rcases textFirst token.kind (by simp [← spelled]) with ⟨value, kind⟩
      rcases exists_text_eq read writes.noBlock with ⟨node, whole, spliced⟩
      refine ⟨.inr ⟨value, here ▸ kind⟩, nodes, writes, ?_⟩
      simp only [tagContent, peek_bind, here, kind]
      refine (bind_of_ok whole).trans ?_
      rw [spliced]
      rfl

theorem exists_expression_eq_of_readsRun (inside : ReadsRun globals kinds page)
    (textFirst : TextFirst kinds) {layers : Nat} (inMixin : Bool) {name : String}
    {stream : TokenStream} {token last : Token} {tokens rest : List Token}
    (deep : kinds.length < layers)
    (pending : stream.pending = token :: (tokens ++ last :: rest)) (opens : token.kind = .tag name)
    (spelled : tokens.map Token.kind = kinds) (ends : EndsRun last.kind) :
    ∃ span nodes, Writes globals nodes page ∧
      (grammar Hooks.none (layers + 1) inMixin).expression stream =
        .ok (tagNode name span nodes) { stream with pending := last :: rest } := by
  have behind : TokenStream.pending { stream with pending := tokens ++ last :: rest } =
      tokens ++ last :: rest := rfl
  rcases exists_tagContent_eq_of_readsRun inside textFirst inMixin (stream.place token.span) deep
    behind spelled ends with ⟨begins, nodes, writes, read⟩
  refine ⟨stream.place token.span, nodes, writes, ?_⟩
  rcases Nat.exists_eq_add_of_lt deep with ⟨spare, rfl⟩
  rw [expression_eq pending opens]
  apply namedTag_eq
  refine tag_eq_of_content begins read (skipNewlines_eq rfl ?_) ?_
  · rcases ends with kind | kind <;> simp [kind]
  · rcases ends with kind | kind <;> simp [TokenStream.next, kind]

theorem readsNode_tag (name : ElementName) (inside : ReadsRun globals kinds page)
    (textFirst : TextFirst kinds) :
    ReadsNode globals (.startInterpolation :: .tag name.value :: (kinds ++ [.endInterpolation]))
      ("<" ++ name.value ++ ">" ++ page ++ "</" ++ name.value ++ ">") := by
  intro layers budget inMixin before stream tokens rest deep pending spelled
  rcases List.map_eq_cons_iff.mp spelled with ⟨start, behind, rfl, isStart, behindKinds⟩
  rcases List.map_eq_cons_iff.mp behindKinds with ⟨token, more, rfl, opens, moreKinds⟩
  rcases List.map_eq_append_iff.mp moreKinds with ⟨tokens, last, rfl, insideKinds, lastKinds⟩
  rcases List.map_eq_cons_iff.mp lastKinds with ⟨close, others, rfl, closes, none⟩
  rw [List.map_eq_nil_iff.mp none] at pending
  simp only [List.length_cons, List.length_append] at deep
  rcases Nat.exists_eq_add_of_le' (by omega : 1 ≤ layers) with ⟨layers, rfl⟩
  have deepInside : kinds.length < layers := by omega
  have pendingTag : TokenStream.pending { stream with
      pending := token :: (tokens ++ close :: rest) } = token :: (tokens ++ close :: rest) := rfl
  rcases exists_expression_eq_of_readsRun inside textFirst inMixin deepInside pendingTag opens
    insideKinds (.inr closes) with ⟨span, nodes, writes, read⟩
  refine ⟨tagNode name.value span nodes, writesNode_tag writes, ?_⟩
  exact textNodes_of_interpolation (by simpa using pending) isStart read closes

end

end Grammar

/-- What stands for a text of a page is read as nodes that write it. -/
theorem Denotes.readsRun {globals : List (String × String)} {kinds : List TokenKind} {page : String}
    (denotes : Denotes globals kinds page) : Grammar.ReadsRun globals kinds page := by
  induction denotes with
  | nil => exact Grammar.readsRun_nil
  | @text value =>
      simpa using (Grammar.readsNode_text value).readsRun (by simp) Grammar.readsRun_nil
  | @code value _ _ _ escaped _ bound _ ih =>
      have coded := (Grammar.readsNode_code escaped bound).readsRun (by simp) ih
      exact (Grammar.readsNode_text value).readsRun (by simp) coded
  | @tag value _ _ name _ _ within _ ihWithin ih =>
      have tagged := (Grammar.readsNode_tag name ihWithin within.textFirst).readsRun (by simp) ih
      simpa using (Grammar.readsNode_text value).readsRun (by simp) tagged

/-- The tokens of a line with content are read as one tag, whose nodes write the content. -/
theorem exists_parse_eq_of_denotes {globals : List (String × String)} {kinds : List TokenKind}
    {page name : String} (denotes : Denotes globals kinds page) {tokens : List Token}
    (spelled : tokens.map Token.kind = .tag name :: (kinds ++ [.eos])) (file source : Option String)
    (events : Array Event) :
    ∃ document eventsAfter span nodes,
      parse tokens { file, source } events = .ok document eventsAfter ∧
        document.nodes = [tagNode name span nodes] ∧ Writes globals nodes page := by
  rcases List.map_eq_cons_iff.mp spelled with ⟨token, behind, rfl, opens, behindKinds⟩
  rcases List.map_eq_append_iff.mp behindKinds with ⟨tokens, last, rfl, tokenKinds, lastKinds⟩
  rcases List.map_eq_cons_iff.mp lastKinds with ⟨eos, others, rfl, isEos, none⟩
  have enough : kinds.length + 2 ≤ parseBudget (token :: (tokens ++ eos :: others)).length := by
    simp only [parseBudget, List.length_cons, List.length_append, ← tokenKinds, List.length_map]
    omega
  rcases Nat.exists_eq_add_of_le' (Nat.le_trans (Nat.le_add_left 1 _) enough) with ⟨layers, budget⟩
  have deep : kinds.length < layers := by omega
  have pending : TokenStream.pending { TokenStream.ofTokens file source
      (token :: (tokens ++ eos :: others)) with events := events } =
      token :: (tokens ++ eos :: others) := rfl
  rcases Grammar.exists_expression_eq_of_readsRun denotes.readsRun denotes.textFirst false deep
    pending opens tokenKinds (.inl isEos) with ⟨span, nodes, writes, read⟩
  rw [← budget] at read
  have opening : TokenStream.next { TokenStream.ofTokens file source
      (token :: (tokens ++ eos :: others)) with events := events } = token := rfl
  have sequence := Grammar.Sequence.tag (opening ▸ opens) read .nil
  have few : 0 + 1 < parseBudget (token :: (tokens ++ eos :: others)).length :=
    Nat.lt_of_lt_of_le (by simp) enough
  rcases exists_parse_eq_of_sequence sequence isEos few
    with ⟨document, eventsAfter, parsed, same⟩
  exact ⟨document, eventsAfter, span, nodes, parsed, same, writes⟩

/-! ### Pages -/

section

variable {root : ElementName} {source : String} {kinds : List TokenKind} {page : String}
  (options : PageOptions) (read : Reader) (file : Option String) (events : Array Event)

/-- The globals are in sight where rendering starts. -/
theorem lookup?_start (globals : List (String × String)) (output : String) (events : Array Event)
    (name : String) : (Machine.start globals output events).lookup? name = globals.lookup name := by
  cases found : globals.lookup name <;> simp [Machine.start, Machine.lookup?, Machine.find?, found]

/-- A source is rendered as the text of a page that its tokens stand for, in its only element. -/
theorem outcome_renderText_of_denotes {tokens : Array Token} {cut : Array Event}
    (tokenized : tokenize source { file } events = .ok tokens cut)
    (spelled : tokens.toList.map Token.kind = .tag root.value :: (kinds ++ [.eos]))
    (denotes : Denotes options.globals kinds page) :
    outcome (renderText options read file source events) =
      .ok (doctype ++ ("<" ++ root.value ++ ">" ++ page ++ "</" ++ root.value ++ ">")) := by
  rcases exists_parse_eq_of_denotes denotes spelled file (some source) cut
    with ⟨document, parsed, span, nodes, parses, only, writes⟩
  have ofSource : Document.ofSource {} file source events = .ok document parsed :=
    (bind_of_ok (adaptExcept_of_ok tokenized)).trans (adaptExcept_of_ok parses)
  have whole : Writes options.globals document.nodes
      ("<" ++ root.value ++ ">" ++ page ++ "</" ++ root.value ++ ">" ++ "") := by
    rw [only]
    exact .cons (writesNode_tag writes) .nil
  rw [String.append_empty] at whole
  refine outcome_renderText_of_finished options read file events ofSource whole.finished ?_
  intro events
  exact exists_render_eq_of_visitAll_eq
    (whole.visited (lookup?_start options.globals doctype events))

/-- Printing running text and rendering the print gives the text back: each text as it is, each
variable as its value, and each element with the running text in it. -/
theorem outcome_renderText_contentLine (root : ElementName) {pieces : List Inline}
    (nonempty : pieces ≠ [])
    (fits : Inline.Fits options.globals false pieces) :
    outcome (renderText options read file (contentLine root pieces) events) =
      .ok (doctype ++ ("<" ++ root.value ++ ">" ++ Inline.htmlAll options.globals pieces ++
        "</" ++ root.value ++ ">")) := by
  rcases exists_tokenize_contentLine_eq nonempty fits file events
    with ⟨tokens, cut, kinds, tokenized, spelled, denotes⟩
  exact outcome_renderText_of_denotes options read file events tokenized spelled denotes

/-- Every text on one line can be written literally. -/
theorem outcome_renderText_escapeMarkers (text : InlineText) :
    outcome (renderText options read file
        (root.value ++ " " ++ String.ofList (escapeMarkers text.value.toList)) events) =
      .ok (doctype ++ ("<" ++ root.value ++ ">" ++ text.value ++ "</" ++ root.value ++ ">")) := by
  have fits : Inline.Fits options.globals false [.text text] := .text (by simp) (by simp) .nil
  rcases exists_tokenize_contentLine_eq (List.cons_ne_nil _ _) fits file events
    with ⟨tokens, cut, kinds, tokenized, spelled, denotes⟩
  have rendered := outcome_renderText_of_denotes options read file events tokenized spelled denotes
  simpa [contentLine, Inline.printAll, Inline.print, Inline.htmlAll, Inline.html] using rendered

end

theorem outcome_renderText_greeting :
    outcome (renderText { globals := [("user", "R&D"), ("rule", "<hr>")] } (fun _ => .error "") none
        "x a \\#[b] #[em #\x7buser\x7d\\!\x7b#[b]\\]!\x7brule\x7d" #[]) =
      .ok "<!DOCTYPE html><x>a #[b] <em>R&amp;D!\x7b<b></b>\\</em><hr></x>" := by
  let x : ElementName :=
    ⟨"x", ⟨'x', [], by decide, by decide, List.all_eq_true.mp (by decide)⟩, by decide, by decide⟩
  let em : ElementName :=
    ⟨"em", ⟨'e', ['m'], by decide, by decide, List.all_eq_true.mp (by decide)⟩, by decide,
      by decide⟩
  let b : ElementName :=
    ⟨"b", ⟨'b', [], by decide, by decide, List.all_eq_true.mp (by decide)⟩, by decide, by decide⟩
  let opening : InlineText := ⟨"a #[b] ", by decide, by decide, by decide⟩
  let brace : InlineText := ⟨"!\x7b", by decide, by decide, by decide⟩
  let backslash : InlineText := ⟨"\\", by decide, by decide, by decide⟩
  let user : VariableName := ⟨"user", by decide⟩
  let rule : VariableName := ⟨"rule", by decide⟩
  let pieces : List Inline :=
    [.text opening, .tag em [.code user true, .text brace, .tag b [], .text backslash],
      .code rule false]
  let globals : List (String × String) := [("user", "R&D"), ("rule", "<hr>")]
  have inside : Inline.Fits globals true
      [.code user true, .text brace, .tag b [], .text backslash] :=
    .code ⟨"R&D", rfl⟩ (.text (by decide) (by simp [brace]) (.tag .nil
      (.text (by decide) (by simp) .nil)))
  have fits : Inline.Fits globals false pieces :=
    .text (by simp) (by simp [opening]) (.tag inside (.code ⟨"<hr>", rfl⟩ .nil))
  have source : contentLine x pieces =
      "x a \\#[b] #[em #\x7buser\x7d\\!\x7b#[b]\\]!\x7brule\x7d" := by
    decide +kernel
  have page : doctype ++ ("<" ++ x.value ++ ">" ++ Inline.htmlAll globals pieces ++
      "</" ++ x.value ++ ">") =
      "<!DOCTYPE html><x>a #[b] <em>R&amp;D!\x7b<b></b>\\</em><hr></x>" := by
    decide +kernel
  rw [← source]
  exact (outcome_renderText_contentLine { globals } _ none #[] x (List.cons_ne_nil _ _) fits).trans
    (congrArg Except.ok page)

end Offside
