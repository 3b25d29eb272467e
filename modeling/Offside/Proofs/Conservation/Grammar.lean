import Offside.Proofs.Conservation.Reading

/-!
# The grammar keeps the content of its tokens

One lemma for each rule of the grammar: the nodes that it gives contain what the tokens contain that
it reads.
-/

namespace Offside

open Computing Parsing TokenStream

namespace Grammar

/-- A grammar that keeps the content of the tokens that it reads. -/
structure KeepsContent (grammar : Grammar) : Prop where
  expression : ∀ stream, Keeps false stream grammar.expression fun node content =>
    node.content = content
  block : ∀ stream, Keeps false stream grammar.block fun block content =>
    Node.contentAll block.nodes = content

section

variable {stream : TokenStream}

/-- Without hooks nothing is done about a token that the grammar does not know. -/
theorem keeps_ask_bind {α : Type} {inHead : Bool} {grammar : Grammar} {context : HookContext}
    {target : context.Target} {next : HookOutcome × context.Target → Parsing α}
    {holds : α → List TokenKind → Prop}
    (declined : Keeps inHead stream (next (.declined, target)) holds) :
    Keeps inHead stream (Hooks.none.ask grammar context target >>= next) holds :=
  declined

/-- A token of a given name is read, unless it is the end of the text. -/
theorem covers_expect (inHead : Bool) {name : String} (more : name ≠ "eos")
    (fits : stream.Fits) :
    Ensures (expect name) stream fun token after => token.name = name ∧
      Covers inHead (token.kind.headBehind inHead) stream after (token.kind.content inHead) := by
  refine .get_bind ?_
  split
  · next named =>
      rintro token after ⟨⟩
      refine ⟨named, covers_tail fits (fun eos => more ?_) inHead⟩
      rw [← named, Token.name, eos]
      rfl
  · exact .get_bind .throw

/-- A token that contains nothing and is no part of a head is read. -/
theorem keeps_expect_bind {α : Type} {name : String} {next : Token → Parsing α}
    {holds : α → List TokenKind → Prop} (more : name ≠ "eos")
    (empty : ∀ kind : TokenKind, kind.name = name →
      kind.content false = [] ∧ kind.headBehind false = false)
    (each : ∀ token middle, Keeps false middle (next token) holds) :
    Keeps false stream (expect name >>= next) holds := by
  intro fits
  refine (covers_expect false more fits).bind ?_
  rintro token middle ⟨named, covers⟩
  rw [(empty token.kind named).1, (empty token.kind named).2] at covers
  refine (each token middle (covers.fits fits)).mono ?_
  rintro result after ⟨content, reads, given⟩
  exact ⟨content, covers.trans_reads reads, given⟩

theorem contentAll_splice (nodes : List Node) (node : Node) :
    Node.contentAll (splice nodes node) = Node.contentAll nodes ++ node.content := by
  unfold splice
  split <;> simp [Label.content]

/-! ### Text -/

variable {inner : Grammar} (keeps : inner.KeepsContent)

theorem keeps_textNode_bind {α : Type} {token : Token} {value : String}
    {next : Node → Parsing α} {holds : α → List TokenKind → Prop}
    (each : ∀ span, Keeps false stream (next (.leaf span (.text value false))) holds) :
    Keeps false stream (textNode token value >>= next) holds :=
  each (stream.place token.span)

include keeps

theorem keeps_interpolated (opens : stream.next.kind = .startInterpolation) :
    Keeps false stream (interpolated inner) fun node content => node.content = content := by
  refine .advance opens (by simp) rfl (.bind (keeps.expression _) ?_)
  intro node content middle kept
  refine keeps_expect_bind (by simp) ?_ fun token after => .pure ?_
  · intro kind named
    cases kind <;> simp [TokenKind.name] at named
    exact ⟨rfl, rfl⟩
  · simpa [TokenKind.content] using kept

theorem keeps_textNodes (blockMode : Bool) (budget : Nat) (nodes : List Node) :
    Keeps false stream (textNodes Hooks.none inner blockMode budget nodes) fun found content =>
      Node.contentAll found = Node.contentAll nodes ++ content := by
  induction budget generalizing nodes stream with
  | zero => exact .throw
  | succ budget ih =>
      apply Keeps.peek
      split
      · rename_i value kind
        refine .advance kind (by simp) rfl (keeps_textNode_bind fun span => (ih _).mono ?_)
        rintro found content kept
        simpa [TokenKind.content, Leaf.content] using kept
      · rename_i expression buffered escaped kind
        refine .advance kind (by simp) rfl (.place fun span => (ih _).mono ?_)
        rintro found content kept
        simpa [TokenKind.content, Leaf.content] using kept
      · rename_i kind
        split
        · refine .advance kind (by simp) rfl (.peek ?_)
          split
          · refine keeps_textNode_bind fun span => (ih _).mono ?_
            rintro found content kept
            simpa [TokenKind.content, Leaf.content, textContent] using kept
          · refine keeps_textNode_bind fun span => (ih _).mono ?_
            rintro found content kept
            simpa [TokenKind.content, Leaf.content, textContent] using kept
          · exact ih _
        · exact .pure (by simp)
      · rename_i kind
        refine .round (keeps_interpolated keeps kind) fun node middle => (ih _).mono ?_
        intro found content kept
        simpa using kept
      · exact keeps_ask_bind (.pure (by simp))

theorem keeps_text (blockMode : Bool) (budget : Nat) :
    Keeps false stream (text Hooks.none inner blockMode budget) fun node content =>
      node.content = content := by
  refine .peek (.place fun span => .bind (keeps_textNodes keeps blockMode budget []) ?_)
  intro nodes content middle kept
  split
  · exact .pure (by simpa using kept)
  · exact .pure (by simpa [Label.content] using kept)

theorem keeps_textBlockNodes (budget : Nat) (block : Document) :
    Keeps false stream (textBlockNodes Hooks.none inner budget block) fun found content =>
      Node.contentAll found.nodes = Node.contentAll block.nodes ++ content := by
  induction budget generalizing block stream with
  | zero => exact .throw
  | succ budget ih =>
      apply Keeps.peek
      split
      · rename_i kind
        exact .advance kind (by simp) rfl (.pure (by simp [TokenKind.content]))
      · rename_i value kind
        refine .advance kind (by simp) rfl (keeps_textNode_bind fun span => (ih _).mono ?_)
        intro found content kept
        simpa [TokenKind.content, Leaf.content] using kept
      · rename_i kind
        refine .advance kind (by simp) rfl (keeps_textNode_bind fun span => (ih _).mono ?_)
        intro found content kept
        simpa [TokenKind.content, Leaf.content, textContent] using kept
      · rename_i kind
        refine .round (keeps_interpolated keeps kind) fun node middle => (ih _).mono ?_
        intro found content kept
        simpa using kept
      · rename_i expression buffered escaped kind
        refine .advance kind (by simp) rfl (.place fun span => (ih _).mono ?_)
        intro found content kept
        simpa [TokenKind.content, Leaf.content] using kept
      · exact .fail
      · exact keeps_ask_bind (.peek .fail)

theorem keeps_textBlockIfAny (budget : Nat) :
    Keeps false stream (textBlockIfAny Hooks.none inner budget) fun found content =>
      (found.map fun block => Node.contentAll block.nodes).getD [] = content := by
  apply Keeps.peek
  split
  · rename_i kind
    refine .advance kind (by simp) rfl (.place fun span => ?_)
    refine .bind (keeps_textBlockNodes keeps budget _) ?_
    intro block content middle kept
    exact .pure (by simpa [TokenKind.content] using kept)
  · exact .pure rfl

theorem keeps_textBlockAt (budget : Nat) (span : Span) :
    Keeps false stream (textBlockAt Hooks.none inner budget span) fun block content =>
      Node.contentAll block.nodes = content := by
  refine .bind (keeps_textBlockIfAny keeps budget) ?_
  intro block content middle kept
  cases block with
  | none => exact .pure (by simpa using kept)
  | some block => exact .pure (by simpa using kept)

omit keeps in
theorem contentAll_close_line (run : HtmlRun) (span : Span) (value : String) :
    Node.contentAll (run.line span value).close =
      Node.contentAll run.close ++ htmlContent value := by
  unfold HtmlRun.line
  split <;> rename_i pending <;>
    simp [HtmlRun.close, pending, Leaf.content, htmlContent_join]

omit keeps in
theorem contentAll_close_add (run : HtmlRun) (node : Node) :
    Node.contentAll (run.add node).close = Node.contentAll run.close ++ node.content := by
  unfold HtmlRun.add
  split
  · rw [contentAll_close_line]
    simp [Leaf.content]
  · simp [HtmlRun.close]

omit keeps in
theorem contentAll_close_foldl (nodes : List Node) (run : HtmlRun) :
    Node.contentAll (nodes.foldl HtmlRun.add run).close =
      Node.contentAll run.close ++ Node.contentAll nodes := by
  induction nodes generalizing run with
  | nil => simp
  | cons node rest ih => simp [ih, contentAll_close_add]

theorem keeps_htmlRun (budget : Nat) (run : HtmlRun) :
    Keeps false stream (htmlRun inner budget run) fun found content =>
      Node.contentAll found = Node.contentAll run.close ++ content := by
  induction budget generalizing run stream with
  | zero => exact .throw
  | succ budget ih =>
      apply Keeps.peek
      split
      · rename_i value kind
        refine .advance kind (by simp) rfl (.place fun span => (ih _).mono ?_)
        intro found content kept
        simpa [TokenKind.content, contentAll_close_line] using kept
      · refine .round (keeps.block _) fun block middle => (ih _).mono ?_
        intro found content kept
        simpa [contentAll_close_foldl] using kept
      · rename_i kind
        exact .advance kind (by simp) rfl (ih _)
      · exact .pure (by simp)

theorem keeps_html (budget : Nat) :
    Keeps false stream (html inner budget) fun found content =>
      Node.contentAll found = content :=
  keeps_htmlRun keeps budget {}

end

/-! ### Attributes -/

section

variable {stream : TokenStream} {inner : Grammar}

theorem ensures_advance_bind {α : Type} {next : Token → Parsing α}
    {holds : α → TokenStream → Prop} (each : Ensures (next stream.next) stream.tail holds) :
    Ensures (advance >>= next) stream holds :=
  each

/-- The entries of a list of attributes, and its end, contain nothing. -/
theorem covers_attributeTokens (inHead : Bool) (budget : Nat) (names : Option (List String))
    (found : List Attribute) (fits : stream.Fits) :
    Ensures (attributeTokens budget names found) stream fun _ after =>
      Covers inHead inHead stream after [] := by
  induction budget generalizing names found stream with
  | zero => exact .throw
  | succ budget ih =>
      refine .get_bind ?_
      split
      · rename_i name value kind
        have entry := covers_tail fits (by simp [kind]) inHead
        rw [kind] at entry
        have others (names : Option (List String)) (found : List Attribute) :
            Ensures (attributeTokens budget names found) stream.tail fun _ after =>
              Covers inHead inHead stream after [] :=
          (ih names found (entry.fits fits)).mono fun _ _ rest => entry.trans rest
        apply ensures_advance_bind
        refine .get_bind ?_
        split
        · split
          · exact others _ _
          · split
            · exact .get_bind .throw
            · exact others _ _
        · exact others _ _
      · refine (covers_expect inHead (by simp) fits).bind ?_
        rintro token after ⟨named, covers⟩
        have kind : token.kind = .endAttributes := by
          cases kind : token.kind <;> simp [Token.name, kind, TokenKind.name] at named
          rfl
        rw [kind] at covers
        exact .pure covers

/-- A list of attributes contains nothing. -/
theorem covers_attributes (inHead : Bool) (budget : Nat) (names : Option (List String))
    (fits : stream.Fits) :
    Ensures (attributes budget names) stream fun _ after =>
      Covers inHead inHead stream after [] := by
  refine (covers_expect inHead (by simp) fits).bind ?_
  rintro token middle ⟨named, covers⟩
  have kind : token.kind = .startAttributes := by
    cases kind : token.kind <;> simp [Token.name, kind, TokenKind.name] at named
    rfl
  rw [kind] at covers
  exact (covers_attributeTokens inHead budget names [] (covers.fits fits)).mono
    fun _ _ rest => covers.trans rest

theorem keeps_attributesIfAny (budget : Nat) :
    Keeps false stream (attributesIfAny budget) fun _ content => content = [] := by
  apply Keeps.peek
  split
  · intro fits
    refine (covers_attributes false budget none fits).bind ?_
    intro found after covers
    exact .pure ⟨[], ⟨false, covers, by simp⟩, rfl⟩
  · exact .pure rfl

/-- The ids, classes and lists of attributes behind a name contain nothing. -/
theorem covers_tagAttributes (budget : Nat) (seenList : Bool) (parts : TagParts)
    (fits : stream.Fits) :
    Ensures (tagAttributes Hooks.none inner budget seenList parts) stream fun found after =>
      Covers true true stream after [] ∧ found.body = parts.body ∧
        found.textOnly = parts.textOnly := by
  induction budget generalizing seenList parts stream with
  | zero => exact .throw
  | succ budget ih =>
      refine .get_bind ?_
      split
      · rename_i value kind
        have name := covers_tail fits (by simp [kind]) true
        rw [kind] at name
        apply ensures_advance_bind
        split
        · exact .get_bind .throw
        · refine (ih seenList _ (name.fits fits)).mono ?_
          rintro found after ⟨rest, body, textOnly⟩
          exact ⟨name.trans rest, body, textOnly⟩
      · rename_i value kind
        have name := covers_tail fits (by simp [kind]) true
        rw [kind] at name
        refine (ih seenList _ (name.fits fits)).mono ?_
        rintro found after ⟨rest, body, textOnly⟩
        exact ⟨name.trans rest, body, textOnly⟩
      · split
        case' isTrue => refine .modify_bind ?_
        -- A second list is noted, but read like the first one.
        all_goals
          refine .bind (covers_attributes true budget _ ?_) ?_
          · exact ⟨fits.ending, fits.dots⟩
          rintro ⟨names, found⟩ middle covers
          refine (ih true _ (covers.fits ⟨fits.ending, fits.dots⟩)).mono ?_
          rintro result after ⟨rest, body, textOnly⟩
          exact ⟨⟨(covers.trans rest).ending, (covers.trans rest).consumed⟩, body, textOnly⟩
      · exact .pure ⟨.refl, rfl, rfl⟩

/-! ### Tags -/

theorem keeps_skipNewlines (budget : Nat) :
    Keeps false stream (skipNewlines budget) fun _ content => content = [] := by
  induction budget generalizing stream with
  | zero => exact .throw
  | succ budget ih =>
      apply Keeps.peek
      split
      · rename_i kind
        exact .advance kind (by simp) rfl ih
      · exact .pure rfl

section

variable (keeps : inner.KeepsContent)

include keeps

/-- What stands behind the head of a tag becomes its body. It begins with nothing that could belong
to the head. -/
theorem keeps_tagContent (inHead : Bool) (budget : Nat) (selfClosingAllowed : Bool)
    {parts : TagParts} (empty : parts.body.nodes = []) :
    Keeps inHead stream (tagContent Hooks.none inner budget selfClosingAllowed parts)
      fun found content => Node.contentAll found.body.nodes = content ∧
        found.textOnly = parts.textOnly ∧
          (stream.next.kind.isContentOfTag = false → content = []) := by
  apply Keeps.peek
  split
  · rename_i value kind
    refine .of_not_isHead (by simp [kind, TokenKind.isHead]) (.bind (keeps_text keeps false _) ?_)
    intro node content middle kept
    exact .pure (by simp [contentAll_splice, empty, kept, kind, TokenKind.isContentOfTag])
  · rename_i expression buffered escaped kind
    refine .of_not_isHead (by simp [kind, TokenKind.isHead]) (.bind (keeps_text keeps false _) ?_)
    intro node content middle kept
    exact .pure (by simp [contentAll_splice, empty, kept, kind, TokenKind.isContentOfTag])
  · rename_i kind
    refine .of_not_isHead (by simp [kind, TokenKind.isHead]) (.advance kind (by simp) rfl ?_)
    refine .bind (keeps.expression _) ?_
    intro node content middle kept
    split
    · exact .pure (by simpa [kind, TokenKind.isContentOfTag, TokenKind.content, Label.content]
        using kept)
    · exact .pure (by simpa [kind, TokenKind.isContentOfTag, TokenKind.content] using kept)
  · rename_i kind
    exact .ends kind rfl (by simp [empty])
  · rename_i width kind
    exact .ends kind rfl (by simp [empty])
  · rename_i kind
    exact .ends kind rfl (by simp [empty])
  · rename_i kind
    exact .ends kind rfl (by simp [empty])
  · rename_i kind
    exact .ends kind rfl (by simp [empty])
  · rename_i kind
    exact .ends kind rfl (by simp [empty])
  · rename_i kind
    split
    · exact .of_not_isHead (by simp [kind, TokenKind.isHead])
        (.advance kind (by simp) rfl (.pure (by simp [empty, TokenKind.content])))
    · exact keeps_ask_bind (.peek .fail)
  · exact keeps_ask_bind (.peek .fail)

/-- What stands in a tag: the content behind its head, and a block of text or of lines below it. -/
theorem keeps_tag (budget : Nat) (selfClosingAllowed : Bool) (span : Span) :
    Keeps true stream (tag Hooks.none inner budget selfClosingAllowed span) fun parts content =>
      Node.contentAll parts.body.nodes = content := by
  intro fits
  refine (covers_tagAttributes budget false (.start span) fits).bind ?_
  rintro parts middle ⟨covers, body, textOnly⟩
  have empty : parts.body.nodes = [] := by rw [body]; rfl
  have noBlock : parts.textOnly = false := textOnly
  refine Keeps.ensures_of_covers ?_ covers fits
  apply Keeps.peek
  split
  · rename_i kind
    refine .of_not_isHead (by simp [kind, TokenKind.isHead]) (.advance kind (by simp) rfl ?_)
    refine .pure_bind (.bind (keeps_tagContent keeps false budget _ empty) ?_)
    rintro found content after ⟨_, still, nothing⟩
    -- The body of a text block replaces what `tagContent` has found, so that this must be nothing.
    have noContent : content = [] :=
      nothing ((covers.fits fits).isContentOfTag_eq_false kind)
    refine .bind (keeps_skipNewlines budget) ?_
    rintro _ _ last rfl
    rw [still]
    refine .bind (keeps_textBlockAt keeps budget _) ?_
    intro block more behind keptBlock
    exact .pure (by simpa [noContent, TokenKind.content] using keptBlock)
  · refine .pure_bind (.bind (keeps_tagContent keeps true budget _ empty) ?_)
    rintro found content after ⟨kept, still, _⟩
    refine .bind (keeps_skipNewlines budget) ?_
    rintro _ _ last rfl
    rw [still, noBlock]
    refine .peek ?_
    split
    · refine .bind (keeps.block _) ?_
      intro block more behind keptBlock
      exact .pure (by simp [kept, keptBlock])
    · exact .pure (by simp [kept])

theorem keeps_namedTag (budget : Nat) (name : String) (span : Span) :
    Keeps true stream (namedTag Hooks.none inner budget name span) fun node content =>
      node.content = .tag name :: content := by
  refine .bind (keeps_tag keeps budget true span) ?_
  intro parts content middle kept
  exact .pure (by simp [Label.content, kept])

/-- An id or a class in front of which no tag stands. -/
theorem keeps_div (budget : Nat) (span : Span) {value : String}
    (begins : stream.next.kind = .id value ∨ stream.next.kind = .className value) :
    Keeps false stream (namedTag Hooks.none inner budget "div" span) fun node content =>
      node.content = content := by
  intro fits
  refine (keeps_namedTag keeps budget "div" span fits).mono ?_
  rintro node after ⟨content, reads, kept⟩
  exact ⟨_, reads.div begins, kept⟩

theorem keeps_variableTag (budget : Nat) (expression : String) (span : Span) :
    Keeps true stream (variableTag Hooks.none inner budget expression span) fun node content =>
      node.content = .interpolation expression :: content := by
  refine .bind (keeps_tag keeps budget true span) ?_
  intro parts content middle kept
  exact .pure (by simp [Label.content, kept])

theorem keeps_call (budget : Nat) (name : String) (arguments : Option String) (span : Span) :
    Keeps true stream (call Hooks.none inner budget name arguments span) fun node content =>
      node.content = .call name arguments :: content := by
  refine .bind (keeps_tag keeps budget false span) ?_
  intro parts content middle kept
  split
  · next empty =>
      have nothing : parts.body.nodes = [] := by simpa using empty
      exact .pure (by simp [Leaf.content, MixinHead.content, ← kept, nothing])
  · exact .pure (by simp [Label.content, MixinHead.content, kept])

/-! ### Expressions -/

theorem keeps_blockNodes (budget : Nat) (block : Document) :
    Keeps false stream (blockNodes inner budget block) fun found content =>
      Node.contentAll found.nodes = Node.contentAll block.nodes ++ content := by
  induction budget generalizing block stream with
  | zero => exact .throw
  | succ budget ih =>
      apply Keeps.peek
      split
      · rename_i kind
        exact .advance kind (by simp) rfl (.pure (by simp [TokenKind.content]))
      · rename_i kind
        exact .advance kind (by simp) rfl (ih _)
      · refine .round (keeps_html keeps budget) fun nodes middle => (ih _).mono ?_
        intro found content kept
        simpa using kept
      · refine .round (keeps.expression _) fun node middle => (ih _).mono ?_
        intro found content kept
        simpa [contentAll_splice] using kept

theorem keeps_indentedBlock (budget : Nat) :
    Keeps false stream (indentedBlock inner budget) fun block content =>
      Node.contentAll block.nodes = content := by
  refine keeps_expect_bind (by simp) ?_ fun token middle => .place fun span => ?_
  · intro kind named
    cases kind <;> simp [TokenKind.name] at named
    exact ⟨rfl, rfl⟩
  · exact keeps_blockNodes keeps budget ⟨span, []⟩

theorem keeps_filter (budget : Nat) (name : String) (span : Span) :
    Keeps false stream (filter Hooks.none inner budget name span) fun node content =>
      node.content = .filter name :: content := by
  induction budget generalizing name span stream with
  | zero => exact .throw
  | succ budget ih =>
      refine .bind (keeps_attributesIfAny budget) ?_
      rintro found _ middle rfl
      refine .peek ?_
      split
      · rename_i value kind
        refine .advance kind (by simp) rfl (.place fun place => keeps_textNode_bind fun text => ?_)
        exact .pure_bind (.pure (by simp [Label.content, Leaf.content, TokenKind.content]))
      · rename_i nested kind
        refine .advance kind (by simp) rfl (.place fun place => .bind (ih nested place) ?_)
        intro node content last kept
        exact .pure_bind (.pure (by simp [Label.content, TokenKind.content, kept]))
      · refine .bind (keeps_textBlockAt keeps budget span) ?_
        intro body content last kept
        exact .pure (by simp [Label.content, kept])

omit keeps in
theorem keeps_includeFilters (budget : Nat) (found : List IncludeFilter) :
    Keeps false stream (includeFilters budget found) fun filters content =>
      filters.map (fun filter => TokenKind.filter filter.name) =
        found.map (fun filter => TokenKind.filter filter.name) ++ content := by
  induction budget generalizing found stream with
  | zero => exact .throw
  | succ budget ih =>
      apply Keeps.peek
      split
      · rename_i name kind
        refine .advance kind (by simp) rfl (.bind (keeps_attributesIfAny budget) ?_)
        rintro attributes _ middle rfl
        refine .place fun span => (ih _).mono ?_
        intro filters content kept
        simpa [TokenKind.content] using kept
      · exact .pure (by simp)

omit keeps in
theorem keeps_expectPath :
    Keeps false stream expectPath fun found content => content = [.path found.2] := by
  apply Keeps.peek
  split
  · rename_i value kind
    exact .advance kind (by simp) rfl (.pure (by simp [TokenKind.content]))
  · exact .fail

theorem keeps_inclusion (budget : Nat) (span : Span) :
    Keeps false stream (inclusion inner budget span) fun node content =>
      node.content = .inclusion :: content := by
  refine .bind (keeps_includeFilters budget []) ?_
  intro filters found middle filtered
  refine .bind keeps_expectPath ?_
  rintro ⟨pathToken, path⟩ _ next rfl
  refine .place fun place => .peek ?_
  dsimp only
  split
  · next template =>
      have noFilter : filters = [] := by simp_all
      have nothing : found = [] := by simpa [noFilter] using filtered.symm
      split
      · refine .bind (keeps.block _) ?_
        intro body content last kept
        exact .pure (by simp [FileUse.content, nothing, kept])
      · exact .pure_bind (.pure (by simp [FileUse.content, nothing]))
  · split
    · exact .fail
    · exact .pure (by simpa [FileUse.content] using filtered)

theorem keeps_mixin (name : String) (arguments : Option String) (start : Span) :
    Keeps false stream (mixin inner name arguments start) fun node content =>
      node.content = .mixin name arguments :: content := by
  apply Keeps.peek
  split
  · refine .bind (keeps.block _) ?_
    intro body content middle kept
    exact .place fun span => .pure (by simp [Label.content, MixinHead.content, kept])
  · exact .fail

end

/-- An expression contains what its tokens contain, when the layer below keeps the content. -/
theorem keeps_expressionRule {layer : Bool → Grammar}
    (keeps : ∀ inMixin, (layer inMixin).KeepsContent) (inMixin : Bool) (budget : Nat) :
    Keeps false stream (expressionRule Hooks.none layer inMixin budget) fun node content =>
      node.content = content := by
  have inner := keeps inMixin
  refine .peek (.place fun span => ?_)
  dsimp only
  split
  · rename_i name kind
    exact .advance_head kind (by simp) rfl (keeps_namedTag inner _ _ _)
  · rename_i value kind
    exact keeps_div inner _ _ (.inl kind)
  · rename_i value kind
    exact keeps_div inner _ _ (.inr kind)
  · rename_i name arguments kind
    exact .advance kind (by simp) rfl (keeps_mixin (keeps true) _ _ _)
  · rename_i name mode kind
    refine .advance kind (by simp) rfl (.peek ?_)
    split
    · refine .bind (inner.block _) ?_
      intro body content middle kept
      exact .pure_bind (.pure (by simp [Label.content, TokenKind.content, kept]))
    · exact .pure_bind (.pure (by simp [Label.content, TokenKind.content]))
  · rename_i kind
    refine .advance kind (by simp) rfl ?_
    split
    · exact .pure (by simp [Leaf.content, TokenKind.content])
    · exact .fail
  · rename_i kind
    refine .advance kind (by simp) rfl (.bind keeps_expectPath ?_)
    rintro ⟨pathToken, path⟩ _ middle rfl
    exact .place fun place => .pure (by simp [FileUse.content, TokenKind.content])
  · rename_i kind
    exact .advance kind (by simp) rfl (keeps_inclusion inner _ _)
  · rename_i value kind
    exact .advance kind (by simp) rfl (.pure (by simp [Leaf.content, TokenKind.content]))
  · rename_i name kind
    exact .advance kind (by simp) rfl (keeps_filter inner _ _ _)
  · rename_i value buffered kind
    refine .advance kind (by simp) rfl (.bind (keeps_textBlockIfAny inner budget) ?_)
    intro body content middle kept
    split
    · exact .pure (by simpa [Label.content, TokenKind.content] using kept)
    · exact .pure (by simpa [Leaf.content, TokenKind.content] using kept)
  · exact keeps_text inner true budget
  · exact keeps_text inner true budget
  · exact keeps_text inner true budget
  · refine .bind (keeps_html inner budget) ?_
    intro nodes content middle kept
    exact .pure (by simp [Label.content, kept])
  · rename_i kind
    refine .advance kind (by simp) rfl (.bind (keeps_textBlockAt inner budget _) ?_)
    intro body content middle kept
    exact .pure (by simp [Label.content, TokenKind.content, kept])
  · rename_i name arguments kind
    exact .advance_head kind (by simp) rfl (keeps_call inner _ _ _ _)
  · rename_i expression kind
    exact .advance_head kind (by simp) rfl (keeps_variableTag inner _ _ _)
  · rename_i kind
    exact .advance kind (by simp) rfl (.pure (by simp [Leaf.content, TokenKind.content]))
  · exact keeps_ask_bind (.peek .fail)

end

end Grammar

/-- Each layer keeps the content of the tokens that it reads, as the one below it does. -/
theorem keepsContent_grammar (layers : Nat) (inMixin : Bool) :
    (grammar Hooks.none layers inMixin).KeepsContent := by
  induction layers generalizing inMixin with
  | zero => exact ⟨fun _ => .throw, fun _ => .throw⟩
  | succ layers ih =>
      exact {
        expression := fun _ => Grammar.keeps_expressionRule ih inMixin layers
        block := fun _ => Grammar.keeps_indentedBlock (ih inMixin) layers }

end Offside
