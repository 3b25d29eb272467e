import Offside.Grammar.Expression
import Offside.Proofs.Layout.Spelling

/-!
# The nodes of laid out entries

The tokens that spell entries are read as one tag for each element, and one file for each include.
Reading needs no more layers of the grammar than there are tokens, and a few for what stands on one
line.
-/

namespace Offside

open Computing Parsing

/-- The node of the text on a line, if there is one. -/
def lineNodes (span : Span) : Option ElementText → List Node
  | none => []
  | some content => [.leaf span (.text content.value false)]

/-- The node of a tag with a name and nothing else behind it than its content. -/
def tagNode (name : String) (span : Span) (content : List Node) : Node :=
  .branch span (.tag ⟨name, false, inlineTags.contains name, false, []⟩ span) content

/-- The node of an element: a tag with a text on its line, and nodes below it. -/
def elementNode (name : String) (span textSpan : Span) (content : Option ElementText)
    (inside : List Node) : Node :=
  tagNode name span (lineNodes textSpan content ++ inside)

/-- Each element stands as a tag in the document, with its text and its elements inside. -/
inductive Stands : List Element → List Node → Prop where
  | nil : Stands [] []
  | cons {name : ElementName} {text : Option ElementText} {children rest : List Element}
      {span textSpan : Span} {inside others : List Node} (standsInside : Stands children inside)
      (following : Stands rest others) :
      Stands (.mk name text children :: rest)
        (elementNode name.value span textSpan text inside :: others)

namespace Entry

/-- Entries as they are read: each element is a tag, and each include refers to its file, which is
not loaded yet. -/
inductive Parsed : List Entry → List Node → Prop where
  | nil : Parsed [] []
  | element {name : ElementName} {text : Option ElementText} {children rest : List Entry}
      {span textSpan : Span} {inside others : List Node} (parsedInside : Parsed children inside)
      (following : Parsed rest others) :
      Parsed (.element name text children :: rest)
        (elementNode name.value span textSpan text inside :: others)
  | inclusion {path : TemplatePath} {included rest : List Entry} {span pathSpan : Span}
      {others : List Node} (following : Parsed rest others) :
      Parsed (.inclusion path included :: rest)
        (.file span (.inclusion span) { span := pathSpan, path := path.value } [] [] :: others)

end Entry

/-- Entries without includes stand for their elements as soon as they are read. -/
theorem stands_of_parsed {forest : List Element} {nodes : List Node}
    (parsed : Entry.Parsed (Element.entries forest) nodes) : Stands forest nodes := by
  generalize same : Element.entries forest = entries at parsed
  induction parsed generalizing forest with
  | nil =>
      cases forest with
      | nil => exact .nil
      | cons element rest => simp [Element.entries] at same
  | element _ _ standsInside standsFollowing =>
      cases forest with
      | nil => simp [Element.entries] at same
      | cons element rest =>
          cases element with
          | mk name text children =>
              simp only [Element.entries, Element.entry, List.cons.injEq,
                Entry.element.injEq] at same
              rcases same with ⟨⟨rfl, rfl, inside⟩, following⟩
              exact .cons (standsInside inside) (standsFollowing following)
  | inclusion following standsFollowing =>
      cases forest with
      | nil => simp [Element.entries] at same
      | cons element rest =>
          cases element
          simp [Element.entries, Element.entry] at same

section

variable {α : Type} {stream : TokenStream} {next : Token → Parsing α}

theorem peek_bind : (peek >>= next) stream = next stream.next stream := rfl

theorem advance_bind :
    (advance >>= next) stream =
      next stream.next { stream with pending := stream.pending.tail } := rfl

theorem place_bind {span : Span} {next : Span → Parsing α} :
    (place span >>= next) stream = next (stream.place span) stream := rfl

end

namespace Grammar

/-- What may stand behind the line of an element, or behind the content of an interpolated tag. -/
def EndsTag : TokenKind → Prop
  | .newline | .indent _ | .outdent | .eos | .endInterpolation => True
  | _ => False

/-- What may stand behind the name of a tag without attributes: a text, or what ends the tag. -/
def BeginsContent (kind : TokenKind) : Prop :=
  EndsTag kind ∨ ∃ value, kind = .text value

section

variable {inner : Grammar} {stream : TokenStream} {budget : Nat}

theorem tagAttributes_eq (parts : TagParts)
    (begins : BeginsContent stream.next.kind) :
    tagAttributes Hooks.none inner (budget + 1) false parts stream = .ok parts stream := by
  simp only [tagAttributes, peek_bind]
  cases kind : stream.next.kind <;> simp [kind, BeginsContent, EndsTag] at begins <;> rfl

/-- A run of text goes on behind a text. -/
theorem textNodes_of_text (inner : Grammar) (budget : Nat) (before : List Node) {value : String}
    {token : Token} {rest : List Token} (pending : stream.pending = token :: rest)
    (kind : token.kind = .text value) :
    textNodes Hooks.none inner false (budget + 1) before stream =
      textNodes Hooks.none inner false budget
        (before ++ [.leaf (stream.place token.span) (.text value false)])
        { stream with pending := rest } := by
  have here : stream.next = token := by simp [TokenStream.next, pending]
  simp only [textNodes, peek_bind, here, kind, advance_bind, pending, List.tail_cons]
  rfl

/-- A run of text ends where its tag does. -/
theorem textNodes_of_ends (inner : Grammar) (budget : Nat) (nodes : List Node)
    (ends : EndsTag stream.next.kind) :
    textNodes Hooks.none inner false (budget + 1) nodes stream = .ok nodes stream := by
  simp only [textNodes, peek_bind]
  cases kind : stream.next.kind <;> simp [kind, EndsTag] at ends <;> rfl

/-- The text of a line is one node. -/
theorem text_eq (inner : Grammar) (budget : Nat) {value : String} {token following : Token}
    {rest : List Token} (pending : stream.pending = token :: following :: rest)
    (kind : token.kind = .text value) (ends : EndsTag following.kind) :
    ∃ span, text Hooks.none inner false (budget + 2) stream =
      .ok (.leaf span (.text value false)) { stream with pending := following :: rest } := by
  refine ⟨stream.place token.span, ?_⟩
  simp only [text, peek_bind, place_bind]
  exact bind_of_ok ((textNodes_of_text inner (budget + 1) [] pending kind).trans
    (textNodes_of_ends inner budget _ ends))

theorem skipNewlines_eq {following : Token} {rest : List Token}
    (pending : stream.pending = following :: rest) (other : following.kind ≠ .newline) :
    skipNewlines (budget + 1) stream = .ok () stream := by
  have here : stream.next = following := by simp [TokenStream.next, pending]
  simp only [skipNewlines, peek_bind, here]
  cases kind : following.kind
  case newline => exact absurd kind other
  all_goals rfl

theorem skipNewlines_of_newline {newline following : Token} {rest : List Token}
    (pending : stream.pending = newline :: following :: rest) (kind : newline.kind = .newline)
    (other : following.kind ≠ .newline) :
    skipNewlines (budget + 2) stream = .ok () { stream with pending := following :: rest } := by
  have here : stream.next = newline := by simp [TokenStream.next, pending]
  simp only [skipNewlines, peek_bind, here, kind, advance_bind, pending, List.tail_cons]
  exact skipNewlines_eq rfl other

variable {content : Option ElementText} {tokens rest : List Token} {following : Token}

/-- A tag with some nodes in it. -/
def filledParts (span : Span) (nodes : List Node) : TagParts :=
  { TagParts.start span with body := ⟨span, nodes⟩ }

/-- A tag with a text on its line. -/
def lineParts (span textSpan : Span) (content : Option ElementText) : TagParts :=
  filledParts span (lineNodes textSpan content)

/-- The kinds of the tokens for the text on a line. -/
def textKinds (content : Option ElementText) : List TokenKind :=
  content.toList.map fun found => .text found.value

theorem tagContent_of_ends (inner : Grammar) (budget : Nat) (span : Span)
    (ends : EndsTag stream.next.kind) :
    tagContent Hooks.none inner budget true (.start span) stream =
      .ok (filledParts span []) stream := by
  simp only [tagContent, peek_bind]
  cases kind : stream.next.kind <;> simp [kind, EndsTag] at ends <;> rfl

theorem tagContent_eq (inner : Grammar) (budget : Nat) (span : Span)
    (pending : stream.pending = tokens ++ following :: rest)
    (kinds : tokens.map Token.kind = textKinds content) (ends : EndsTag following.kind) :
    ∃ textSpan, tagContent Hooks.none inner (budget + 2) true (.start span) stream =
      .ok (lineParts span textSpan content) { stream with pending := following :: rest } := by
  cases content with
  | none =>
      rw [List.map_eq_nil_iff.mp kinds, List.nil_append] at pending
      have here : stream.next = following := by simp [TokenStream.next, pending]
      refine ⟨span, ?_⟩
      rw [← pending]
      exact tagContent_of_ends inner (budget + 2) span (here ▸ ends)
  | some found =>
      rcases List.map_eq_cons_iff.mp kinds with ⟨token, others, rfl, kind, none⟩
      rw [List.map_eq_nil_iff.mp none, List.cons_append, List.nil_append] at pending
      have here : stream.next = token := by simp [TokenStream.next, pending]
      rcases text_eq inner budget pending kind ends with ⟨textSpan, read⟩
      refine ⟨textSpan, ?_⟩
      simp only [tagContent, peek_bind, here, kind]
      exact bind_of_ok read

theorem beginsContent_of_line (pending : stream.pending = tokens ++ following :: rest)
    (kinds : tokens.map Token.kind = textKinds content) (ends : EndsTag following.kind) :
    BeginsContent stream.next.kind := by
  cases content with
  | none =>
      rw [List.map_eq_nil_iff.mp kinds] at pending
      simpa [TokenStream.next, pending] using .inl ends
  | some found =>
      rcases List.map_eq_cons_iff.mp kinds with ⟨token, others, rfl, kind, _⟩
      exact .inr ⟨found.value, by simpa [TokenStream.next, pending] using kind⟩

section

variable {span : Span} {nodes : List Node} {after last : TokenStream}

/-- Behind its content a tag may have an indented block. -/
theorem tag_eq_bind (begins : BeginsContent stream.next.kind)
    (read : tagContent Hooks.none inner (budget + 1) true (.start span) stream =
      .ok (filledParts span nodes) after) :
    tag Hooks.none inner (budget + 1) true span stream =
      (do
        skipNewlines (budget + 1)
        match (← peek).kind with
        | .indent _ =>
            let block ← inner.block
            return filledParts span (nodes ++ block.nodes)
        | _ => return filledParts span nodes : Parsing TagParts) after := by
  have attributes : tagAttributes Hooks.none inner (budget + 1) false (.start span) stream =
      .ok (.start span) stream :=
    tagAttributes_eq (.start span) begins
  unfold tag
  rw [bind_of_ok attributes, peek_bind]
  dsimp only
  cases kind : stream.next.kind
  case dot => simp [kind, BeginsContent, EndsTag] at begins
  all_goals exact bind_of_ok read

/-- A tag with nothing indented below its content. -/
theorem tag_eq_of_content (begins : BeginsContent stream.next.kind)
    (read : tagContent Hooks.none inner (budget + 1) true (.start span) stream =
      .ok (filledParts span nodes) after)
    (skipped : skipNewlines (budget + 1) after = .ok () last)
    (noBlock : ∀ width, last.next.kind ≠ .indent width) :
    tag Hooks.none inner (budget + 1) true span stream = .ok (filledParts span nodes) last := by
  rw [tag_eq_bind begins read, bind_of_ok skipped, peek_bind]
  cases kind : last.next.kind
  case indent width => exact absurd kind (noBlock width)
  all_goals rfl

end

/-- A tag with nothing indented below its line. -/
theorem tag_eq_of_leaf (inner : Grammar) (budget : Nat) (span : Span) {last : Token}
    {others : List Token} (pending : stream.pending = tokens ++ following :: rest)
    (kinds : tokens.map Token.kind = textKinds content) (ends : EndsTag following.kind)
    (skipped : skipNewlines (budget + 2) { stream with pending := following :: rest } =
      .ok () { stream with pending := last :: others })
    (noBlock : ∀ width, last.kind ≠ .indent width) :
    ∃ textSpan, tag Hooks.none inner (budget + 2) true span stream =
      .ok (lineParts span textSpan content) { stream with pending := last :: others } := by
  rcases tagContent_eq inner budget span pending kinds ends with ⟨textSpan, read⟩
  exact ⟨textSpan, tag_eq_of_content (beginsContent_of_line pending kinds ends) read skipped
    noBlock⟩

/-- A tag with an indented block below its line. -/
theorem tag_eq_of_block (inner : Grammar) (budget : Nat) (span : Span) {width : Nat}
    {block : Document} {after : TokenStream}
    (pending : stream.pending = tokens ++ following :: rest)
    (kinds : tokens.map Token.kind = textKinds content) (indented : following.kind = .indent width)
    (read : inner.block { stream with pending := following :: rest } = .ok block after) :
    ∃ textSpan, tag Hooks.none inner (budget + 2) true span stream =
      .ok (filledParts span (lineNodes textSpan content ++ block.nodes)) after := by
  have ends : EndsTag following.kind := by simp [indented, EndsTag]
  rcases tagContent_eq inner budget span pending kinds ends with ⟨textSpan, line⟩
  have here : TokenStream.next { stream with pending := following :: rest } = following := rfl
  have skipped : skipNewlines (budget + 2) { stream with pending := following :: rest } =
      .ok () { stream with pending := following :: rest } :=
    skipNewlines_eq rfl (by simp [indented])
  have finished := (tag_eq_bind (beginsContent_of_line pending kinds ends) line).trans
    (bind_of_ok skipped)
  simp only [peek_bind, here, indented] at finished
  exact ⟨textSpan, finished.trans (bind_of_ok read)⟩

/-! ### Expressions one after the other -/

/-- What the expression of an entry begins with. -/
def OpensEntry : TokenKind → Prop
  | .tag _ | .inclusion => True
  | _ => False

/-- Some expressions are read one after the other, with newlines between them, in a number of
rounds. None of them is a bare block. -/
inductive Sequence (inner : Grammar) : (rounds : Nat) → TokenStream → List Node → TokenStream →
    Prop where
  | nil {stream : TokenStream} : Sequence inner 0 stream [] stream
  | cons {rounds : Nat} {stream middle last : TokenStream} {node : Node} {nodes : List Node}
      (opens : OpensEntry stream.next.kind)
      (whole : ∀ before, splice before node = before ++ [node])
      (read : inner.expression stream = .ok node middle)
      (following : Sequence inner rounds middle nodes last) :
      Sequence inner (rounds + 1) stream (node :: nodes) last
  | newline {rounds : Nat} {stream last : TokenStream} {nodes : List Node}
      (newline : stream.next.kind = .newline)
      (following : Sequence inner rounds { stream with pending := stream.pending.tail } nodes
        last) :
      Sequence inner (rounds + 1) stream nodes last

variable {rounds : Nat}

theorem Sequence.tag {middle last : TokenStream} {opening name : String} {span : Span}
    {content nodes : List Node} (opens : stream.next.kind = .tag opening)
    (read : inner.expression stream = .ok (tagNode name span content) middle)
    (following : Sequence inner rounds middle nodes last) :
    Sequence inner (rounds + 1) stream (tagNode name span content :: nodes) last :=
  .cons (by simp [OpensEntry, opens]) (fun _ => rfl) read following

theorem blockNodes_eq {last : TokenStream} {nodes : List Node} {block : Document}
    (sequence : Sequence inner rounds stream nodes last) (ends : last.next.kind = .outdent)
    (enough : rounds < budget) :
    blockNodes inner budget block stream =
      .ok { block with nodes := block.nodes ++ nodes }
        { last with pending := last.pending.tail } := by
  induction sequence generalizing budget block with
  | nil =>
      cases budget with
      | zero => simp at enough
      | succ budget =>
          simp only [blockNodes, peek_bind, ends, advance_bind, List.append_nil]
          rfl
  | @cons rounds stream middle last node nodes opens whole read following ih =>
      cases budget with
      | zero => simp at enough
      | succ budget =>
          have rest := @ih budget { block with nodes := splice block.nodes node } ends
            (Nat.lt_of_succ_lt_succ enough)
          simp only [whole, List.append_assoc, List.cons_append, List.nil_append] at rest
          simp only [blockNodes, peek_bind]
          cases kind : stream.next.kind <;> simp [OpensEntry, kind] at opens <;>
            exact (bind_of_ok read).trans (by simpa only [whole] using rest)
  | newline newline following ih =>
      cases budget with
      | zero => simp at enough
      | succ budget =>
          simp only [blockNodes, peek_bind, newline, advance_bind]
          exact ih ends (Nat.lt_of_succ_lt_succ enough)

theorem documentNodes_eq {last : TokenStream} {nodes : List Node} (before : List Node)
    (sequence : Sequence inner rounds stream nodes last) (ends : last.next.kind = .eos)
    (enough : rounds < budget) :
    documentNodes inner budget before stream = .ok (before ++ nodes) last := by
  induction sequence generalizing budget before with
  | nil =>
      cases budget with
      | zero => simp at enough
      | succ budget =>
          simp only [documentNodes, peek_bind, ends, List.append_nil]
          rfl
  | @cons rounds stream middle last node nodes opens whole read following ih =>
      cases budget with
      | zero => simp at enough
      | succ budget =>
          have rest := ih (splice before node) ends (Nat.lt_of_succ_lt_succ enough)
          simp only [whole, List.append_assoc, List.cons_append, List.nil_append] at rest
          simp only [documentNodes, peek_bind]
          cases kind : stream.next.kind <;> simp [OpensEntry, kind] at opens <;>
            exact (bind_of_ok read).trans (by simpa only [whole] using rest)
  | newline newline following ih =>
      cases budget with
      | zero => simp at enough
      | succ budget =>
          simp only [documentNodes, peek_bind, newline, advance_bind]
          exact ih before ends (Nat.lt_of_succ_lt_succ enough)

/-! ### The expression of an element -/

/-- A tag in some layer of the grammar is read with the layer below it. -/
theorem expression_eq {layers : Nat} {inMixin : Bool} {name : String} {token : Token}
    (pending : stream.pending = token :: rest) (opens : token.kind = .tag name) :
    (grammar Hooks.none (layers + 1) inMixin).expression stream =
      namedTag Hooks.none (grammar Hooks.none layers inMixin) layers name (stream.place token.span)
        { stream with pending := rest } := by
  have here : stream.next = token := by simp [TokenStream.next, pending]
  simp only [grammar, expressionRule, peek_bind, place_bind, here, opens, advance_bind, pending,
    List.tail_cons]

variable {name : String} {inMixin : Bool} {token : Token}

theorem namedTag_eq {inner : Grammar} {span : Span} {nodes : List Node} {after : TokenStream}
    (read : tag Hooks.none inner budget true span stream = .ok (filledParts span nodes) after) :
    namedTag Hooks.none inner budget name span stream = .ok (tagNode name span nodes) after :=
  bind_of_ok read

theorem exists_expression_eq_of_leaf (budget : Nat) (inMixin : Bool) {last : Token}
    {others : List Token}
    (pending : stream.pending = token :: (tokens ++ following :: rest))
    (opens : token.kind = .tag name) (kinds : tokens.map Token.kind = textKinds content)
    (ends : EndsTag following.kind)
    (skipped : skipNewlines (budget + 2) { stream with pending := following :: rest } =
      .ok () { stream with pending := last :: others })
    (noBlock : ∀ width, last.kind ≠ .indent width) :
    ∃ span textSpan, (grammar Hooks.none (budget + 3) inMixin).expression stream =
      .ok (elementNode name span textSpan content [])
        { stream with pending := last :: others } := by
  have rest : TokenStream.pending { stream with pending := tokens ++ following :: rest } =
      tokens ++ following :: rest := rfl
  rcases tag_eq_of_leaf (grammar Hooks.none (budget + 2) inMixin) budget (stream.place token.span)
    rest kinds ends skipped noBlock with ⟨textSpan, read⟩
  refine ⟨stream.place token.span, textSpan, ?_⟩
  rw [expression_eq pending opens]
  apply namedTag_eq
  rw [List.append_nil]
  exact read

theorem exists_expression_eq_of_block (budget : Nat) (inMixin : Bool) {width : Nat}
    {block : Document} {after : TokenStream}
    (pending : stream.pending = token :: (tokens ++ following :: rest))
    (opens : token.kind = .tag name) (kinds : tokens.map Token.kind = textKinds content)
    (indented : following.kind = .indent width)
    (read : (grammar Hooks.none (budget + 2) inMixin).block
      { stream with pending := following :: rest } = .ok block after) :
    ∃ span textSpan, (grammar Hooks.none (budget + 3) inMixin).expression stream =
      .ok (elementNode name span textSpan content block.nodes) after := by
  have rest : TokenStream.pending { stream with pending := tokens ++ following :: rest } =
      tokens ++ following :: rest := rfl
  rcases tag_eq_of_block (grammar Hooks.none (budget + 2) inMixin) budget
    (stream.place token.span) rest kinds indented read with ⟨textSpan, read⟩
  refine ⟨stream.place token.span, textSpan, ?_⟩
  rw [expression_eq pending opens]
  exact namedTag_eq read

/-- An indented block is what is between its first and its last token. -/
theorem exists_block_eq {width layers : Nat} {last : Token} {nodes : List Node}
    (pending : stream.pending = following :: tokens) (indented : following.kind = .indent width)
    (sequence : Sequence (grammar Hooks.none layers inMixin) rounds
      { stream with pending := tokens } nodes { stream with pending := last :: rest })
    (ends : last.kind = .outdent) (enough : rounds < layers) :
    ∃ span, (grammar Hooks.none (layers + 1) inMixin).block stream =
      .ok ⟨span, nodes⟩ { stream with pending := rest } := by
  have here : stream.next = following := by simp [TokenStream.next, pending]
  have named : following.name = "indent" := by simp [Token.name, indented, TokenKind.name]
  refine ⟨stream.place following.span, ?_⟩
  have read : expect "indent" stream = .ok following { stream with pending := tokens } := by
    simp only [expect, peek_bind, here, named, if_true]
    simp [advance, get_bind_eq, here, pending]
    rfl
  simp only [grammar, indentedBlock]
  refine (bind_of_ok read).trans ?_
  rw [place_bind]
  exact blockNodes_eq sequence ends enough

/-- An element is read with the elements in the block behind its line. -/
theorem exists_expression_eq_of_nested (budget : Nat) {width : Nat} {indent outdent : Token}
    {below : List Token} {nodes : List Node}
    (pending : stream.pending = token :: (tokens ++ indent :: (below ++ outdent :: rest)))
    (opens : token.kind = .tag name) (kinds : tokens.map Token.kind = textKinds content)
    (isIndent : indent.kind = .indent width) (isOutdent : outdent.kind = .outdent)
    (sequence : Sequence (grammar Hooks.none (budget + 1) inMixin) rounds
      { stream with pending := below ++ outdent :: rest } nodes
      { stream with pending := outdent :: rest })
    (enough : rounds < budget + 1) :
    ∃ span textSpan, (grammar Hooks.none (budget + 3) inMixin).expression stream =
      .ok (elementNode name span textSpan content nodes) { stream with pending := rest } := by
  have pendingBlock : TokenStream.pending
      { stream with pending := indent :: (below ++ outdent :: rest) } =
      indent :: (below ++ outdent :: rest) := rfl
  rcases exists_block_eq pendingBlock isIndent sequence isOutdent enough with ⟨blockSpan, block⟩
  exact exists_expression_eq_of_block budget inMixin pending opens kinds isIndent block

/-- An include is read as a file that is not loaded. -/
theorem exists_expression_eq_of_inclusion (budget : Nat) (inMixin : Bool) (path : TemplatePath)
    {pathToken : Token} (pending : stream.pending = token :: pathToken :: following :: rest)
    (opens : token.kind = .inclusion) (isPath : pathToken.kind = .path path.value)
    (noBlock : ∀ width, following.kind ≠ .indent width) :
    ∃ span pathSpan, (grammar Hooks.none (budget + 2) inMixin).expression stream =
      .ok (.file span (.inclusion span) { span := pathSpan, path := path.value } [] [])
        { stream with pending := following :: rest } := by
  have here : stream.next = token := by simp [TokenStream.next, pending]
  have noFilter : includeFilters (budget + 1) []
      { stream with pending := pathToken :: following :: rest } =
      .ok [] { stream with pending := pathToken :: following :: rest } := by
    simp only [includeFilters, peek_bind, TokenStream.next, List.headD_cons, isPath]
    rfl
  have found : expectPath { stream with pending := pathToken :: following :: rest } =
      .ok (pathToken, path.value) { stream with pending := following :: rest } := by
    simp only [expectPath, peek_bind, TokenStream.next, List.headD_cons, isPath, advance_bind,
      List.tail_cons, path.bare]
    rfl
  refine ⟨stream.place token.span, stream.place pathToken.span, ?_⟩
  simp only [grammar, expressionRule, peek_bind, place_bind, here, opens, advance_bind, pending,
    List.tail_cons, inclusion]
  refine (bind_of_ok noFilter).trans ((bind_of_ok found).trans ?_)
  simp only [peek_bind, place_bind, TokenStream.next, List.headD_cons]
  cases kind : following.kind
  case indent width => exact absurd kind (noBlock width)
  all_goals
    simp only [path.isTemplate, List.isEmpty_nil, Bool.and_self, if_true, Bool.false_eq_true,
      if_false]
    rfl

/-! ### Entries -/

/-- What spells entries begins with a tag or with an include, if it is not empty. -/
theorem opensEntry_of_spells {entries : List Entry} {kinds : List TokenKind}
    (spells : Spells entries kinds) : ∀ kind ∈ kinds.head?, OpensEntry kind := by
  have line (entry : Entry) : ∃ kind others, entry.lineKinds = kind :: others ∧
      OpensEntry kind := by
    cases entry with
    | element name text children => exact ⟨_, _, rfl, trivial⟩
    | inclusion path included => exact ⟨_, _, rfl, trivial⟩
  cases spells with
  | nil => simp
  | @last entry _ | @next entry _ _ _ _ | @nested entry _ _ _ _ _ _ _ =>
      rcases line entry with ⟨kind, others, first, opens⟩
      simpa [first] using opens

/-- What comes after the entries of one level. -/
def EndsLevel (tokens : List Token) : Prop :=
  ∃ next others, tokens = next :: others ∧ (next.kind = .outdent ∨ next.kind = .eos)

/-- Behind a newline stands the next entry or the end of a level. -/
theorem exists_eq_cons_of_spells {entries : List Entry} {after : List Token}
    (spells : Spells entries (tokens.map Token.kind)) (ends : EndsLevel after) :
    ∃ last others, tokens ++ after = last :: others ∧ last.kind ≠ .newline ∧
      ∀ width, last.kind ≠ .indent width := by
  cases tokens with
  | nil =>
      rcases ends with ⟨next, others, rfl, outdent | eos⟩
      · exact ⟨next, others, rfl, by simp [outdent], by simp [outdent]⟩
      · exact ⟨next, others, rfl, by simp [eos], by simp [eos]⟩
  | cons token tokens =>
      have opens : OpensEntry token.kind := opensEntry_of_spells spells token.kind (by simp)
      refine ⟨token, tokens ++ after, rfl, ?_, ?_⟩
      · intro newline
        simp [newline, OpensEntry] at opens
      · intro width indent
        simp [indent, OpensEntry] at opens

/-- The tokens of these kinds are read as entries, in any layer that has enough others below it. An
element is read two layers above the entries in its block, and each block has two tokens of its own,
so as many layers as there are tokens are always enough. -/
def ReadsEntries (entries : List Entry) (kinds : List TokenKind) : Prop :=
  ∀ (layers : Nat) (inMixin : Bool) (stream : TokenStream) (tokens after : List Token),
    kinds.length + 3 ≤ layers → stream.pending = tokens ++ after →
      tokens.map Token.kind = kinds → EndsLevel after →
        ∃ rounds nodes, Sequence (grammar Hooks.none layers inMixin) rounds stream nodes
          { stream with pending := after } ∧ Entry.Parsed entries nodes ∧ rounds ≤ kinds.length

theorem next_kind_of_pending {kind : TokenKind} (pending : stream.pending = token :: rest)
    (isKind : token.kind = kind) : stream.next.kind = kind := by
  simpa [TokenStream.next, pending] using isKind

theorem readsEntries_nil : ReadsEntries [] [] := by
  intro layers inMixin stream tokens after _ pending spelled _
  rw [List.map_eq_nil_iff.mp spelled, List.nil_append] at pending
  refine ⟨0, [], ?_, .nil, Nat.zero_le _⟩
  rw [← pending]
  exact .nil

theorem readsEntries_last (name : ElementName) (text : Option ElementText) :
    ReadsEntries [.element name text []] (Element.lineKinds name text) := by
  intro layers inMixin stream tokens after enough pending spelled ends
  rcases List.map_eq_cons_iff.mp spelled with ⟨token, line, rfl, opens, lineKinds⟩
  rcases ends with ⟨last, others, rfl, ends⟩
  rcases Nat.exists_eq_add_of_le' (by omega : 3 ≤ layers) with ⟨budget, rfl⟩
  have noNewline : last.kind ≠ .newline := by rcases ends with kind | kind <;> simp [kind]
  have noBlock : ∀ width, last.kind ≠ .indent width := by
    rcases ends with kind | kind <;> simp [kind]
  have endsTag : EndsTag last.kind := by rcases ends with kind | kind <;> simp [kind, EndsTag]
  rcases exists_expression_eq_of_leaf budget inMixin pending opens lineKinds endsTag
    (skipNewlines_eq rfl noNewline) noBlock with ⟨span, textSpan, read⟩
  exact ⟨1, _, .tag (next_kind_of_pending pending opens) read .nil, .element .nil .nil,
    by simp [Element.lineKinds]⟩

theorem readsEntries_lastInclusion (path : TemplatePath) (included : List Entry) :
    ReadsEntries [.inclusion path included] [.inclusion, .path path.value] := by
  intro layers inMixin stream tokens after enough pending spelled ends
  rcases List.map_eq_cons_iff.mp spelled with ⟨token, behind, rfl, opens, behindKinds⟩
  rcases List.map_eq_cons_iff.mp behindKinds with ⟨pathToken, more, rfl, isPath, noMore⟩
  rcases ends with ⟨last, others, rfl, ends⟩
  rcases Nat.exists_eq_add_of_le' (by omega : 2 ≤ layers) with ⟨budget, rfl⟩
  rw [List.map_eq_nil_iff.mp noMore, List.cons_append, List.cons_append, List.nil_append]
    at pending
  have noBlock : ∀ width, last.kind ≠ .indent width := by
    rcases ends with kind | kind <;> simp [kind]
  rcases exists_expression_eq_of_inclusion budget inMixin path pending opens isPath noBlock
    with ⟨span, pathSpan, read⟩
  have opensEntry : OpensEntry stream.next.kind := by
    simp [OpensEntry, next_kind_of_pending pending opens]
  exact ⟨1, _, .cons opensEntry (fun _ => rfl) read .nil, .inclusion .nil, by simp⟩

theorem readsEntries_next (name : ElementName) (text : Option ElementText) {entries : List Entry}
    {kinds : List TokenKind} (following : Spells entries kinds)
    (readsFollowing : ReadsEntries entries kinds) :
    ReadsEntries (.element name text [] :: entries)
      (Element.lineKinds name text ++ .newline :: kinds) := by
  intro layers inMixin stream tokens after enough pending spelled ends
  rcases List.map_eq_cons_iff.mp spelled with ⟨token, behind, rfl, opens, behindKinds⟩
  rcases List.map_eq_append_iff.mp behindKinds with ⟨line, more, rfl, lineKinds, moreKinds⟩
  rcases List.map_eq_cons_iff.mp moreKinds with ⟨newline, tokens, rfl, isNewline, restKinds⟩
  rcases Nat.exists_eq_add_of_le' (by omega : 3 ≤ layers) with ⟨budget, rfl⟩
  -- The newlines are read with the line, up to the next entry or the end of the level.
  rcases exists_eq_cons_of_spells (restKinds ▸ following) ends
    with ⟨last, others, split, noNewline, noBlock⟩
  have pendingLine : stream.pending = token :: (line ++ newline :: (last :: others)) := by
    simpa [← split] using pending
  rcases exists_expression_eq_of_leaf budget inMixin pendingLine opens lineKinds
    (by simp [isNewline, EndsTag]) (skipNewlines_of_newline rfl isNewline noNewline) noBlock
    with ⟨span, textSpan, read⟩
  rw [← split] at read
  simp only [List.length_append, List.length_cons] at enough
  rcases readsFollowing (budget + 3) inMixin { stream with pending := tokens ++ after } tokens
    after (by omega) rfl restKinds ends with ⟨rounds, nodes, sequence, parsed, few⟩
  refine ⟨rounds + 1, _, .tag (next_kind_of_pending pending opens) read sequence,
    .element .nil parsed, ?_⟩
  simp only [List.length_append, List.length_cons]
  omega

theorem readsEntries_nextInclusion (path : TemplatePath) (included : List Entry)
    {entries : List Entry} {kinds : List TokenKind} (readsFollowing : ReadsEntries entries kinds) :
    ReadsEntries (.inclusion path included :: entries)
      ([.inclusion, .path path.value] ++ .newline :: kinds) := by
  intro layers inMixin stream tokens after enough pending spelled ends
  rcases List.map_eq_cons_iff.mp spelled with ⟨token, behind, rfl, opens, behindKinds⟩
  rcases List.map_eq_cons_iff.mp behindKinds with ⟨pathToken, more, rfl, isPath, moreKinds⟩
  rcases List.map_eq_cons_iff.mp moreKinds with ⟨newline, tokens, rfl, isNewline, restKinds⟩
  rcases Nat.exists_eq_add_of_le' (by omega : 2 ≤ layers) with ⟨budget, rfl⟩
  simp only [List.cons_append] at pending
  rcases exists_expression_eq_of_inclusion budget inMixin path pending opens isPath
    (by simp [isNewline]) with ⟨span, pathSpan, read⟩
  have opensEntry : OpensEntry stream.next.kind := by
    simp [OpensEntry, next_kind_of_pending pending opens]
  simp only [List.length_append, List.length_cons, List.length_nil] at enough
  rcases readsFollowing (budget + 2) inMixin { stream with pending := tokens ++ after } tokens
    after (by omega) rfl restKinds ends with ⟨rounds, nodes, sequence, parsed, few⟩
  -- An include leaves the newline behind it to the loop that reads the entries.
  have behindLine : Sequence (grammar Hooks.none (budget + 2) inMixin) (rounds + 1)
      { stream with pending := newline :: (tokens ++ after) } nodes
      { stream with pending := after } :=
    .newline isNewline sequence
  refine ⟨rounds + 2, _, .cons opensEntry (fun _ => rfl) read behindLine, .inclusion parsed, ?_⟩
  simp only [List.length_append, List.length_cons, List.length_nil]
  omega

theorem readsEntries_nested (name : ElementName) (text : Option ElementText)
    {children entries : List Entry} {width : Nat} {kindsInside kinds : List TokenKind}
    (readsInside : ReadsEntries children kindsInside)
    (readsFollowing : ReadsEntries entries kinds) :
    ReadsEntries (.element name text children :: entries)
      (Element.lineKinds name text ++ .indent width :: (kindsInside ++ .outdent :: kinds)) := by
  intro layers inMixin stream tokens after enough pending spelled ends
  rcases List.map_eq_cons_iff.mp spelled with ⟨token, behind, rfl, opens, behindKinds⟩
  rcases List.map_eq_append_iff.mp behindKinds with ⟨line, more, rfl, lineKinds, moreKinds⟩
  rcases List.map_eq_cons_iff.mp moreKinds with ⟨indent, below, rfl, isIndent, belowKinds⟩
  rcases List.map_eq_append_iff.mp belowKinds with ⟨inside, last, rfl, insideKinds, lastKinds⟩
  rcases List.map_eq_cons_iff.mp lastKinds with ⟨outdent, tokens, rfl, isOutdent, restKinds⟩
  rcases Nat.exists_eq_add_of_le' (by omega : 3 ≤ layers) with ⟨budget, rfl⟩
  simp only [List.length_append, List.length_cons] at enough
  rcases readsInside (budget + 1) inMixin
    { stream with pending := inside ++ outdent :: (tokens ++ after) } inside
    (outdent :: (tokens ++ after)) (by omega) rfl insideKinds ⟨outdent, _, rfl, .inl isOutdent⟩
    with ⟨roundsInside, nodes, sequence, parsed, few⟩
  have pendingLine : stream.pending =
      token :: (line ++ indent :: (inside ++ outdent :: (tokens ++ after))) := by
    simpa using pending
  rcases exists_expression_eq_of_nested budget pendingLine opens lineKinds isIndent isOutdent
    sequence (by omega) with ⟨span, textSpan, read⟩
  rcases readsFollowing (budget + 3) inMixin { stream with pending := tokens ++ after } tokens
    after (by omega) rfl restKinds ends with ⟨rounds, others, sequenceRest, parsedRest, fewRest⟩
  refine ⟨rounds + 1, _, .tag (next_kind_of_pending pending opens) read sequenceRest,
    .element parsed parsedRest, ?_⟩
  simp only [List.length_append, List.length_cons]
  omega

end

end Grammar

/-- The tokens that spell entries are read as these entries. -/
theorem Spells.readsEntries {entries : List Entry} {kinds : List TokenKind}
    (spells : Spells entries kinds) : Grammar.ReadsEntries entries kinds := by
  induction spells with
  | nil => exact Grammar.readsEntries_nil
  | @last entry leaf =>
      cases entry with
      | element name text children =>
          have noChildren : children = [] := leaf
          subst noChildren
          exact Grammar.readsEntries_last name text
      | inclusion path included => exact Grammar.readsEntries_lastInclusion path included
  | @next entry rest kinds leaf following ih =>
      cases entry with
      | element name text children =>
          have noChildren : children = [] := leaf
          subst noChildren
          exact Grammar.readsEntries_next name text following ih
      | inclusion path included => exact Grammar.readsEntries_nextInclusion path included ih
  | @nested entry rest width kindsInside kinds nonempty inside following ihInside ihFollowing =>
      cases entry with
      | element name text children =>
          exact Grammar.readsEntries_nested name text ihInside ihFollowing
      | inclusion path included => exact absurd rfl nonempty

/-- Expressions that are read one after the other up to the end of the text make up a document. -/
theorem exists_parse_eq_of_sequence {tokens : List Token} {file source : Option String}
    {events : Array Event} {rounds : Nat} {nodes : List Node} {last : TokenStream}
    (sequence : Grammar.Sequence (grammar Hooks.none (parseBudget tokens.length) false) rounds
      { TokenStream.ofTokens file source tokens with events := events } nodes last)
    (ends : last.next.kind = .eos) (few : rounds < parseBudget tokens.length) :
    ∃ document eventsAfter, parse tokens { file, source } events = .ok document eventsAfter ∧
      document.nodes = nodes := by
  have rule : documentRule Hooks.none (parseBudget tokens.length)
      { TokenStream.ofTokens file source tokens with events := events } =
      .ok ⟨⟨last.file, 0, 0⟩, nodes⟩ last :=
    bind_of_ok (Grammar.documentNodes_eq [] sequence ends few)
  refine ⟨⟨⟨last.file, 0, 0⟩, nodes⟩, last.events.push (.parsed nodes.length file), ?_, rfl⟩
  simp only [parse, rule]

/-- The tokens of some entries, and the end of the text, are read as these entries. -/
theorem exists_parse_eq {entries : List Entry} {kinds : List TokenKind}
    (spells : Spells entries kinds) {tokens : List Token}
    (spelled : tokens.map Token.kind = kinds ++ [.eos]) (file source : Option String)
    (events : Array Event) :
    ∃ document eventsAfter, parse tokens { file, source } events = .ok document eventsAfter ∧
      Entry.Parsed entries document.nodes := by
  rcases List.map_eq_append_iff.mp spelled with ⟨tokens, last, rfl, tokenKinds, lastKinds⟩
  rcases List.map_eq_cons_iff.mp lastKinds with ⟨eos, others, rfl, isEos, none⟩
  have length : tokens.length = kinds.length := by simp [← tokenKinds]
  have enough : kinds.length + 3 ≤ parseBudget (tokens ++ eos :: others).length := by
    simp only [parseBudget, List.length_append, List.length_cons]
    omega
  have pending : TokenStream.pending { TokenStream.ofTokens file source (tokens ++ eos :: others)
      with events := events } = tokens ++ eos :: others := rfl
  rcases spells.readsEntries _ false _ _ _ enough pending tokenKinds
    ⟨eos, others, rfl, .inr isEos⟩ with ⟨rounds, nodes, sequence, parsed, few⟩
  rcases exists_parse_eq_of_sequence sequence (by simp [TokenStream.next, isEos]) (by omega)
    with ⟨document, eventsAfter, read, same⟩
  exact ⟨document, eventsAfter, read, same ▸ parsed⟩

end Offside
