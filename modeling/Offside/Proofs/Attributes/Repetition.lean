import Offside.Proofs.Attributes.Names
import Offside.Proofs.Conservation.Reading
import Offside.Proofs.Contract.Composition

/-!
# Tags without repeated names

While the head of a tag is read, the names that are noted are those which the head has given so far.
So a fault about a repeated name stands at a token that repeats it. All other rules of the grammar
only take tokens off the stream, and leave the names to the tags that they belong to.
-/

namespace Offside

open Computing Parsing

/-- Some of the tokens of a template are still to be read. -/
structure TokenStream.ReadsOn (tokens : List Token) (file : Option String) (stream : TokenStream) :
    Prop where
  file : stream.file = file
  ending : stream.ending.kind = .eos
  pending : stream.pending <:+ tokens

/-- Some of the tokens of a template are still to be read, and in front of these the head of a tag
has given the names that are noted. If nothing of the head was read then a tag `div` begins here. -/
structure TokenStream.ReadsHead (tokens : List Token) (file : Option String) (names : List String)
    (stream : TokenStream) : Prop where
  file : stream.file = file
  ending : stream.ending.kind = .eos
  pending : ∃ before head, tokens = before ++ head ++ stream.pending ∧ IsTagHead head ∧
    (head = [] → stream.next.kind.beginsTag) ∧
    ∀ name ∈ names, name ≠ "class" ∧ ∃ token ∈ head, token.kind.attributeName? = some name

/-- If there is a fault about a repeated name then it stands at a token that repeats it. -/
def ParseStop.NamesRepetition (stop : ParseStop) (tokens : List Token) (file : Option String) :
    Prop :=
  match stop with
  | .fault found => found.NamesRepetition tokens file
  | .exhausted => True

/-- A computation on a template's tokens leads to a value with a property and a stream, or it stops
where a name is repeated, or for another reason. -/
def Parsing.Leads {α : Type} (tokens : List Token) (file : Option String) (action : Parsing α)
    (stream : TokenStream) (holds : α → TokenStream → Prop) : Prop :=
  match action stream with
  | .ok value after => holds value after
  | .error stop _ => stop.NamesRepetition tokens file

/-- From each of a template's streams the computation leads to another one. -/
def Parsing.Stays {α : Type} (tokens : List Token) (file : Option String) (action : Parsing α) :
    Prop :=
  ∀ stream : TokenStream, stream.ReadsOn tokens file →
    Leads tokens file action stream fun _ after => after.ReadsOn tokens file

variable {tokens : List Token} {file : Option String}

/-- The end of a list of attributes is part of a head. -/
theorem TokenKind.isHead_of_name_eq {kind : TokenKind}
    (name : kind.name = "start-attributes" ∨ kind.name = "end-attributes") : kind.isHead := by
  cases kind <;> first | rfl | simp [TokenKind.name] at name

namespace TokenStream

variable {names more : List String} {stream : TokenStream}

/-- A token that is no end of the text is taken off the stream. -/
theorem pending_eq_cons (ending : stream.ending.kind = .eos) (other : stream.next.kind ≠ .eos) :
    stream.pending = stream.next :: stream.pending.tail := by
  cases pending : stream.pending with
  | nil => exact absurd ending (by simpa [next, pending] using other)
  | cons token rest => simp [next, pending]

theorem ReadsHead.readsOn (reads : stream.ReadsHead tokens file names) :
    stream.ReadsOn tokens file := by
  rcases reads.pending with ⟨before, head, whole, _⟩
  exact ⟨reads.file, reads.ending, before ++ head, whole.symm⟩

/-- A token begins the head of a tag. -/
theorem ReadsOn.opens (reads : stream.ReadsOn tokens file) (begins : stream.next.kind.beginsTag) :
    stream.tail.ReadsHead tokens file [] := by
  have other : stream.next.kind ≠ .eos := by
    intro atEnd
    rw [atEnd] at begins
    cases begins
  rcases reads.pending with ⟨before, whole⟩
  rw [pending_eq_cons reads.ending other] at whole
  refine ⟨reads.file, reads.ending, before, [stream.next], ?_, isTagHead_single begins, ?_, ?_⟩
  · simp [← whole, TokenStream.tail]
  · simp
  · simp

/-- A tag `div` begins with an id or a class, which is still to be read. -/
theorem ReadsOn.opensHere (reads : stream.ReadsOn tokens file)
    (begins : stream.next.kind.beginsTag) : stream.ReadsHead tokens file [] := by
  rcases reads.pending with ⟨before, whole⟩
  refine ⟨reads.file, reads.ending, before, [], ?_, ⟨by simp, by simp⟩, fun _ => begins, by simp⟩
  rw [List.append_nil, whole]

/-- A token of the head is read, and if a name is noted then it is one that this token gives. -/
theorem ReadsHead.tail (reads : stream.ReadsHead tokens file names)
    (part : stream.next.kind.isHead)
    (given : ∀ name ∈ more, name ∈ names ∨
      name ≠ "class" ∧ stream.next.kind.attributeName? = some name) :
    stream.tail.ReadsHead tokens file more := by
  have other : stream.next.kind ≠ .eos := by
    intro atEnd
    rw [atEnd] at part
    cases part
  rcases reads.pending with ⟨before, head, whole, isHead, begins, known⟩
  rw [pending_eq_cons reads.ending other] at whole
  refine ⟨reads.file, reads.ending, before, head ++ [stream.next], ?_,
    isHead.concat begins part, by simp, ?_⟩
  · simp [whole, TokenStream.tail]
  · intro name found
    rcases given name found with earlier | ⟨noClass, here⟩
    · rcases known name earlier with ⟨noClass, token, member, gives⟩
      exact ⟨noClass, token, List.mem_append_left _ member, gives⟩
    · exact ⟨noClass, stream.next, by simp, here⟩

/-- A name that is noted is repeated by the next token if this gives it. -/
theorem ReadsHead.repeats (reads : stream.ReadsHead tokens file names) {name : String}
    (known : name ∈ names) (gives : stream.next.kind.attributeName? = some name) :
    name ≠ "class" ∧ stream.next.Repeats name tokens := by
  have other : stream.next.kind ≠ .eos := by
    intro atEnd
    rw [atEnd] at gives
    cases gives
  rcases reads.pending with ⟨before, head, whole, isHead, _, given⟩
  rw [pending_eq_cons reads.ending other] at whole
  rcases given name known with ⟨noClass, earlier⟩
  exact ⟨noClass, gives, before, head, stream.pending.tail, whole, isHead, earlier⟩

end TokenStream

open TokenStream

namespace Parsing

variable {α β : Type} {action : Parsing α} {next : α → Parsing β} {stream : TokenStream}
  {first : α → TokenStream → Prop} {holds : β → TokenStream → Prop}

namespace Leads

theorem pure {value : β} (given : holds value stream) :
    Leads tokens file (Pure.pure value) stream holds :=
  given

theorem exhausted : Leads tokens file (throw .exhausted : Parsing β) stream holds :=
  True.intro

theorem bind (before : Leads tokens file action stream first)
    (after : ∀ value middle, first value middle → Leads tokens file (next value) middle holds) :
    Leads tokens file (action >>= next) stream holds := by
  unfold Leads at before ⊢
  cases acted : action stream with
  | error stop middle =>
      rw [bind_of_error acted]
      simpa only [acted] using before
  | ok value middle =>
      rw [bind_of_ok acted]
      simp only [acted] at before
      exact after value middle before

theorem peek {next : Token → Parsing β}
    (each : Leads tokens file (next stream.next) stream holds) :
    Leads tokens file (Parsing.peek >>= next) stream holds :=
  each

theorem advance {next : Token → Parsing β}
    (each : Leads tokens file (next stream.next) stream.tail holds) :
    Leads tokens file (Parsing.advance >>= next) stream holds :=
  each

theorem place {next : Span → Parsing β} {span : Span}
    (each : Leads tokens file (next (stream.place span)) stream holds) :
    Leads tokens file (Parsing.place span >>= next) stream holds :=
  each

theorem pure_bind {value : α} (given : Leads tokens file (next value) stream holds) :
    Leads tokens file (Pure.pure value >>= next) stream holds :=
  given

/-- A fault that is not about a repeated name. -/
theorem fail {span : Span} {cause : ParseFault} (other : cause.repeatedName? = none) :
    Leads tokens file (Parsing.fail span cause : Parsing β) stream holds := by
  change ∀ name ∈ cause.repeatedName?, _
  rw [other]
  rintro _ ⟨⟩

/-- The fault is about a name that the next token repeats. -/
theorem repeats {names : List String} (reads : stream.ReadsHead tokens file names) {name : String}
    (known : name ∈ names) (gives : stream.next.kind.attributeName? = some name)
    {cause : ParseFault} (about : cause.repeatedName? = some name) {later : TokenStream}
    (same : later.file = stream.file) :
    Leads tokens file (Parsing.fail stream.next.span cause : Parsing β) later holds := by
  change ∀ other ∈ cause.repeatedName?, _
  rw [about]
  rintro _ ⟨⟩
  rcases reads.repeats known gives with ⟨noClass, repeated⟩
  refine ⟨noClass, stream.next, repeated, ?_⟩
  rw [← reads.file, ← same]
  rfl

/-- A token of a given name is read, which is a part of the head. -/
theorem expect {names : List String} (reads : stream.ReadsHead tokens file names) {name : String}
    (part : stream.next.name = name → stream.next.kind.isHead) :
    Leads tokens file (Parsing.expect name) stream fun _ after =>
      after.ReadsHead tokens file names := by
  apply Leads.peek
  split
  · next same => exact reads.tail (part same) fun _ => .inl
  · exact .fail rfl

end Leads

namespace Stays

theorem pure {value : α} : Stays tokens file (Pure.pure value) :=
  fun _ reads => .pure reads

theorem exhausted : Stays tokens file (throw .exhausted : Parsing α) :=
  fun _ _ => .exhausted

theorem bind (before : Stays tokens file action)
    (after : ∀ value, Stays tokens file (next value)) : Stays tokens file (action >>= next) :=
  fun stream reads => (before stream reads).bind fun value middle => after value middle

theorem pure_bind {value : α} (given : Stays tokens file (next value)) :
    Stays tokens file (Pure.pure value >>= next) :=
  given

theorem peek : Stays tokens file peek :=
  fun _ reads => reads

theorem place {span : Span} : Stays tokens file (place span) :=
  fun _ reads => reads

theorem advance : Stays tokens file advance := by
  intro stream reads
  have shorter : stream.pending.tail <:+ stream.pending := List.tail_suffix stream.pending
  exact ⟨reads.file, reads.ending, shorter.trans reads.pending⟩

/-- A fault that is not about a repeated name. -/
theorem fail {span : Span} {cause : ParseFault} (other : cause.repeatedName? = none) :
    Stays tokens file (Parsing.fail span cause : Parsing α) :=
  fun _ _ => .fail other

theorem expect (name : String) : Stays tokens file (expect name) := by
  refine .bind .peek fun token => ?_
  split
  · exact .advance
  · exact .fail rfl

theorem expectPath : Stays tokens file expectPath := by
  refine .bind .peek fun token => ?_
  split
  · exact .bind .advance fun _ => .pure
  · exact .fail rfl

theorem textNode {token : Token} {value : String} : Stays tokens file (textNode token value) :=
  .bind .place fun _ => .pure

end Stays

end Parsing

namespace Grammar

/-- A grammar that takes nothing but tokens off the stream. -/
structure StaysOn (tokens : List Token) (file : Option String) (grammar : Grammar) : Prop where
  expression : Stays tokens file grammar.expression
  block : Stays tokens file grammar.block
  textBlock : Stays tokens file grammar.textBlock

/-- Without hooks nothing is done about a token that the grammar does not know. -/
theorem stays_ask_bind {α : Type} {grammar : Grammar} {context : HookContext}
    {target : context.Target} {next : HookOutcome × context.Target → Parsing α}
    (declined : Stays tokens file (next (.declined, target))) :
    Stays tokens file (Hooks.none.ask grammar context target >>= next) :=
  fun stream reads => declined stream reads

/-! ### The head of a tag -/

/-- A list of attributes whose names may be repeated. -/
theorem stays_attributeTokens (budget : Nat) (found : List Attribute) :
    Stays tokens file (attributeTokens budget none found) := by
  induction budget generalizing found with
  | zero => exact .exhausted
  | succ budget ih =>
      refine .bind .peek fun token => ?_
      split
      · exact .bind .advance fun _ => .bind .place fun span => .pure_bind (ih _)
      · exact .bind (.expect _) fun _ => .pure

theorem stays_attributesIfAny (budget : Nat) : Stays tokens file (attributesIfAny budget) := by
  refine .bind .peek fun token => ?_
  split
  · exact .bind (.bind (.expect _) fun _ => stays_attributeTokens budget []) fun _ => .pure
  · exact .pure

variable {stream : TokenStream}

/-- A list of attributes in the head of a tag: each of them is noted, and none that was. -/
theorem leads_attributeTokens (budget : Nat) {names : List String} (found : List Attribute)
    (reads : stream.ReadsHead tokens file names) :
    Leads tokens file (attributeTokens budget (some names) found) stream fun read after =>
      ∃ more, read.1 = some more ∧ after.ReadsHead tokens file more := by
  induction budget generalizing stream names found with
  | zero => exact .exhausted
  | succ budget ih =>
      apply Leads.peek
      split
      · rename_i name value kind
        have gives : stream.next.kind.attributeName? = some name := by rw [kind]; rfl
        have part : stream.next.kind.isHead := by rw [kind]; rfl
        apply Leads.advance
        apply Leads.place
        dsimp only
        split
        · exact .pure_bind (ih _ (reads.tail part fun _ => .inl))
        · next noClass =>
            split
            · next known =>
                have repeated := List.contains_iff_mem.mp known
                exact .bind (.repeats reads repeated gives rfl rfl) fun _ _ => False.elim
            · refine .pure_bind (ih _ (reads.tail part fun other found => ?_))
              rcases List.mem_append.mp found with earlier | last
              · exact .inl earlier
              · rw [List.mem_singleton.mp last]
                exact .inr ⟨noClass, gives⟩
      · apply Leads.bind (.expect reads fun name => TokenKind.isHead_of_name_eq (.inr name))
        intro _ after head
        exact .pure ⟨names, rfl, head⟩

theorem leads_attributes (budget : Nat) {names : List String}
    (reads : stream.ReadsHead tokens file names) :
    Leads tokens file (attributes budget (some names)) stream fun read after =>
      ∃ more, read.1 = some more ∧ after.ReadsHead tokens file more :=
  .bind (.expect reads fun name => TokenKind.isHead_of_name_eq (.inl name)) fun _ _ =>
    leads_attributeTokens budget []

/-- The ids, classes and lists of attributes of a tag: the head goes on while they are read. -/
theorem leads_tagAttributes {inner : Grammar} (budget : Nat) (seenList : Bool) {parts : TagParts}
    (reads : stream.ReadsHead tokens file parts.names) :
    Leads tokens file (tagAttributes Hooks.none inner budget seenList parts) stream
      fun _ after => after.ReadsOn tokens file := by
  induction budget generalizing stream seenList parts with
  | zero => exact .exhausted
  | succ budget ih =>
      apply Leads.peek
      split
      · rename_i value kind
        have gives : stream.next.kind.attributeName? = some "id" := by rw [kind]; rfl
        have part : stream.next.kind.isHead := by rw [kind]; rfl
        apply Leads.advance
        split
        · next known =>
            have repeated := List.contains_iff_mem.mp known
            exact .bind (.repeats reads repeated gives rfl rfl) fun _ _ => False.elim
        · refine .place (ih _ (reads.tail part fun other found => ?_))
          rcases List.mem_append.mp found with earlier | last
          · exact .inl earlier
          · rw [List.mem_singleton.mp last]
            exact .inr ⟨by decide, gives⟩
      · rename_i value kind
        have part : stream.next.kind.isHead := by rw [kind]; rfl
        exact .advance (.place (ih _ (reads.tail part fun _ => .inl)))
      · have goesOn (start : TokenStream) (reads : start.ReadsHead tokens file parts.names) :
            Leads tokens file
              (attributes budget (some parts.names) >>= fun read =>
                tagAttributes Hooks.none inner budget true { parts with
                  names := read.1.getD parts.names
                  attributes := parts.attributes ++ read.2 })
              start fun _ after => after.ReadsOn tokens file := by
          apply Leads.bind (leads_attributes budget reads)
          rintro read after ⟨more, known, reads⟩
          refine ih true ?_
          rwa [known]
        split
        · exact goesOn _ ⟨reads.file, reads.ending, reads.pending⟩
        · exact goesOn stream reads
      · exact reads.readsOn

/-! ### Texts -/

section Text

variable {inner : Grammar} (stays : inner.StaysOn tokens file)

include stays

theorem stays_interpolated : Stays tokens file (interpolated inner) :=
  .bind .advance fun _ => .bind stays.expression fun _ => .bind (.expect _) fun _ => .pure

theorem stays_textNodes (blockMode : Bool) (budget : Nat) (nodes : List Node) :
    Stays tokens file (textNodes Hooks.none inner blockMode budget nodes) := by
  induction budget generalizing nodes with
  | zero => exact .exhausted
  | succ budget ih =>
      refine .bind .peek fun token => ?_
      split
      · exact .bind .advance fun _ => .bind .textNode fun _ => ih _
      · exact .bind .advance fun _ => .bind .place fun _ => ih _
      · split
        · refine .bind .advance fun _ => .bind .peek fun following => ?_
          split
          · exact .bind .textNode fun _ => ih _
          · exact .bind .textNode fun _ => ih _
          · exact ih _
        · exact .pure
      · exact .bind (stays_interpolated stays) fun _ => ih _
      · exact stays_ask_bind .pure

theorem stays_text (blockMode : Bool) (budget : Nat) :
    Stays tokens file (text Hooks.none inner blockMode budget) := by
  refine .bind .peek fun token => .bind .place fun span => ?_
  refine .bind (stays_textNodes stays blockMode budget []) fun nodes => ?_
  split <;> exact .pure

theorem stays_htmlRun (budget : Nat) (run : HtmlRun) :
    Stays tokens file (htmlRun inner budget run) := by
  induction budget generalizing run with
  | zero => exact .exhausted
  | succ budget ih =>
      refine .bind .peek fun token => ?_
      split
      · exact .bind .advance fun _ => .bind .place fun _ => ih _
      · exact .bind stays.block fun _ => ih _
      · exact .bind .advance fun _ => ih _
      · exact .pure

theorem stays_textBlockNodes (budget : Nat) (block : Document) :
    Stays tokens file (textBlockNodes Hooks.none inner budget block) := by
  induction budget generalizing block with
  | zero => exact .exhausted
  | succ budget ih =>
      refine .bind .peek fun token => ?_
      split
      · exact .bind .advance fun _ => .pure
      · exact .bind .advance fun _ => .bind .textNode fun _ => ih _
      · exact .bind .advance fun _ => .bind .textNode fun _ => ih _
      · exact .bind (stays_interpolated stays) fun _ => ih _
      · exact .bind .advance fun _ => .bind .place fun _ => ih _
      · exact .fail rfl
      · exact stays_ask_bind (.bind .peek fun _ => .fail rfl)

theorem stays_textBlockIfAny (budget : Nat) :
    Stays tokens file (textBlockIfAny Hooks.none inner budget) := by
  refine .bind .peek fun token => ?_
  split
  · exact .bind .advance fun _ => .bind .place fun _ =>
      .bind (stays_textBlockNodes stays budget _) fun _ => .pure
  · exact .pure

theorem stays_textBlockAt (budget : Nat) (span : Span) :
    Stays tokens file (textBlockAt Hooks.none inner budget span) :=
  .bind (stays_textBlockIfAny stays budget) fun _ => .pure

end Text

/-! ### Tags and the other expressions -/

theorem stays_skipNewlines (budget : Nat) : Stays tokens file (skipNewlines budget) := by
  induction budget with
  | zero => exact .exhausted
  | succ budget ih =>
      refine .bind .peek fun token => ?_
      split
      · exact .bind .advance fun _ => ih
      · exact .pure

section Expression

variable {inner : Grammar} (stays : inner.StaysOn tokens file)

theorem stays_includeFilters (budget : Nat) (found : List IncludeFilter) :
    Stays tokens file (includeFilters budget found) := by
  induction budget generalizing found with
  | zero => exact .exhausted
  | succ budget ih =>
      refine .bind .peek fun token => ?_
      split
      · exact .bind .advance fun _ => .bind (stays_attributesIfAny budget) fun _ =>
          .bind .place fun _ => ih _
      · exact .pure

include stays

theorem stays_tagContent (budget : Nat) (selfClosingAllowed : Bool) (parts : TagParts) :
    Stays tokens file (tagContent Hooks.none inner budget selfClosingAllowed parts) := by
  refine .bind .peek fun token => ?_
  split
  · exact .bind (stays_text stays false budget) fun _ => .pure
  · exact .bind (stays_text stays false budget) fun _ => .pure
  · refine .bind .advance fun _ => .bind stays.expression fun node => ?_
    split <;> exact .pure
  · exact .pure
  · exact .pure
  · exact .pure
  · exact .pure
  · exact .pure
  · exact .pure
  · split
    · exact .bind .advance fun _ => .pure
    · exact stays_ask_bind (.bind .peek fun _ => .fail rfl)
  · exact stays_ask_bind (.bind .peek fun _ => .fail rfl)

/-- A tag whose head begins has no names yet. -/
theorem leads_tag (budget : Nat) (selfClosingAllowed : Bool) (span : Span)
    (reads : stream.ReadsHead tokens file []) :
    Leads tokens file (tag Hooks.none inner budget selfClosingAllowed span) stream
      fun _ after => after.ReadsOn tokens file := by
  refine .bind (leads_tagAttributes budget false reads) fun parts middle reads => ?_
  revert middle
  change Stays tokens file _
  refine .bind .peek fun token => ?_
  dsimp only
  split
  case' h_1 => refine .bind .advance fun _ => ?_
  -- With a dot or without one, the rest of the tag is read in the same way.
  all_goals
    refine .pure_bind (.bind (stays_tagContent stays budget selfClosingAllowed _) fun parts => ?_)
    refine .bind (stays_skipNewlines budget) fun _ => ?_
    split
    · exact .bind (stays_textBlockAt stays budget _) fun _ => .pure
    · refine .bind .peek fun token => ?_
      split
      · exact .bind stays.block fun _ => .pure
      · exact .pure

theorem leads_namedTag (budget : Nat) (name : String) (span : Span)
    (reads : stream.ReadsHead tokens file []) :
    Leads tokens file (namedTag Hooks.none inner budget name span) stream
      fun _ after => after.ReadsOn tokens file :=
  .bind (leads_tag stays budget true span reads) fun _ _ reads => .pure reads

theorem leads_variableTag (budget : Nat) (expression : String) (span : Span)
    (reads : stream.ReadsHead tokens file []) :
    Leads tokens file (variableTag Hooks.none inner budget expression span) stream
      fun _ after => after.ReadsOn tokens file :=
  .bind (leads_tag stays budget true span reads) fun _ _ reads => .pure reads

theorem leads_call (budget : Nat) (name : String) (arguments : Option String) (span : Span)
    (reads : stream.ReadsHead tokens file []) :
    Leads tokens file (call Hooks.none inner budget name arguments span) stream
      fun _ after => after.ReadsOn tokens file := by
  refine .bind (leads_tag stays budget false span reads) fun parts after reads => ?_
  dsimp only
  split <;> exact .pure reads

theorem stays_blockNodes (budget : Nat) (block : Document) :
    Stays tokens file (blockNodes inner budget block) := by
  induction budget generalizing block with
  | zero => exact .exhausted
  | succ budget ih =>
      refine .bind .peek fun token => ?_
      split
      · exact .bind .advance fun _ => .pure
      · exact .bind .advance fun _ => ih _
      · exact .bind (stays_htmlRun stays budget _) fun _ => ih _
      · exact .bind stays.expression fun _ => ih _

theorem stays_filter (budget : Nat) (name : String) (span : Span) :
    Stays tokens file (filter Hooks.none inner budget name span) := by
  induction budget generalizing name span with
  | zero => exact .exhausted
  | succ budget ih =>
      refine .bind (stays_attributesIfAny budget) fun _ => .bind .peek fun token => ?_
      dsimp only
      split
      · exact .bind .advance fun _ => .bind .place fun _ => .bind .textNode fun _ =>
          .pure_bind .pure
      · exact .bind .advance fun _ => .bind .place fun _ => .bind (ih _ _) fun _ =>
          .pure_bind .pure
      · exact .bind (stays_textBlockAt stays budget span) fun _ => .pure

theorem stays_inclusion (budget : Nat) (span : Span) :
    Stays tokens file (inclusion inner budget span) := by
  refine .bind (stays_includeFilters budget []) fun filters => .bind .expectPath fun found => ?_
  refine .bind .place fun start => .bind .peek fun token => ?_
  dsimp only
  split
  · split
    · exact .bind stays.block fun _ => .pure
    · exact .pure_bind .pure
  · split
    · exact .fail rfl
    · exact .pure

theorem stays_mixin (name : String) (arguments : Option String) (start : Span) :
    Stays tokens file (mixin inner name arguments start) := by
  refine .bind .peek fun token => ?_
  split
  · exact .bind stays.block fun _ => .bind .place fun _ => .pure
  · exact .fail rfl

end Expression

/-- Tags and calls begin a head of their own, and it is still to be read where a tag `div` is
without its name. -/
theorem stays_expressionRule {layer : Bool → Grammar}
    (stays : ∀ inMixin, (layer inMixin).StaysOn tokens file) (inMixin : Bool) (budget : Nat) :
    Stays tokens file (expressionRule Hooks.none layer inMixin budget) := by
  intro stream reads
  have inner := stays inMixin
  apply Leads.peek
  apply Leads.place
  dsimp only
  split
  · rename_i name kind
    have begins : stream.next.kind.beginsTag := by rw [kind]; rfl
    exact .advance (leads_namedTag inner _ _ _ (reads.opens begins))
  · rename_i value kind
    have begins : stream.next.kind.beginsTag := by rw [kind]; rfl
    exact leads_namedTag inner _ _ _ (reads.opensHere begins)
  · rename_i value kind
    have begins : stream.next.kind.beginsTag := by rw [kind]; rfl
    exact leads_namedTag inner _ _ _ (reads.opensHere begins)
  · exact Stays.bind .advance (fun _ => stays_mixin (stays true) _ _ _) stream reads
  · refine Stays.bind .advance (fun _ => .bind .peek fun following => ?_) stream reads
    split
    · exact .bind inner.block fun _ => .pure_bind .pure
    · exact .pure_bind .pure
  · refine Stays.bind .advance (fun _ => ?_) stream reads
    split
    · exact .pure
    · exact .fail rfl
  · exact Stays.bind .advance (fun _ => .bind .expectPath fun _ => .bind .place fun _ => .pure)
      stream reads
  · exact Stays.bind .advance (fun _ => stays_inclusion inner _ _) stream reads
  · exact Stays.bind .advance (fun _ => .pure) stream reads
  · exact Stays.bind .advance (fun _ => stays_filter inner _ _ _) stream reads
  · refine Stays.bind .advance (fun _ => .bind (stays_textBlockIfAny inner budget) ?_) stream reads
    rintro (_ | body)
    · exact .pure
    · exact .pure
  · exact stays_text inner true budget stream reads
  · exact stays_text inner true budget stream reads
  · exact stays_text inner true budget stream reads
  · exact Stays.bind (stays_htmlRun inner budget _) (fun _ => .pure) stream reads
  · exact Stays.bind .advance (fun _ => .bind (stays_textBlockAt inner budget _) fun _ => .pure)
      stream reads
  · rename_i name arguments kind
    have begins : stream.next.kind.beginsTag := by rw [kind]; rfl
    exact .advance (leads_call inner _ _ _ _ (reads.opens begins))
  · rename_i expression kind
    have begins : stream.next.kind.beginsTag := by rw [kind]; rfl
    exact .advance (leads_variableTag inner _ _ _ (reads.opens begins))
  · exact Stays.bind .advance (fun _ => .pure) stream reads
  · exact stays_ask_bind (.bind .peek fun _ => .fail rfl) stream reads

end Grammar

/-! ### Documents -/

theorem staysOn_grammar (layers : Nat) (inMixin : Bool) :
    (grammar Hooks.none layers inMixin).StaysOn tokens file := by
  induction layers generalizing inMixin with
  | zero => exact ⟨.exhausted, .exhausted, .exhausted⟩
  | succ layers ih =>
      exact {
        expression := Grammar.stays_expressionRule ih inMixin layers
        block := .bind (.expect _) fun _ => .bind .place fun _ =>
          Grammar.stays_blockNodes (ih inMixin) layers _
        textBlock := Grammar.stays_textBlockIfAny (ih inMixin) layers }

theorem stays_documentNodes {inner : Grammar} (stays : inner.StaysOn tokens file) (budget : Nat)
    (nodes : List Node) : Stays tokens file (documentNodes inner budget nodes) := by
  induction budget generalizing nodes with
  | zero => exact .exhausted
  | succ budget ih =>
      refine .bind .peek fun token => ?_
      split
      · exact .pure
      · exact .bind .advance fun _ => ih _
      · exact .bind (Grammar.stays_htmlRun stays budget _) fun _ => ih _
      · exact .bind stays.expression fun _ => ih _

theorem stays_documentRule (budget : Nat) :
    Stays tokens file (documentRule Hooks.none budget) :=
  .bind (stays_documentNodes (staysOn_grammar budget false) budget []) fun _ _ reads => reads

/-- When reading fails, then a fault about a repeated name stands at a token that repeats it. -/
theorem namesRepetition_parse (tokens : List Token) (file source : Option String) :
    Satisfies (parse tokens { file, source }) (fun _ => True)
      fun fault => fault.NamesRepetition tokens file := by
  intro events
  have read := stays_documentRule (parseBudget tokens.length)
    { TokenStream.ofTokens file source tokens with events := events }
    ⟨rfl, kind_endingOf tokens, List.suffix_refl tokens⟩
  unfold Leads at read
  dsimp only [parse]
  revert read
  cases documentRule Hooks.none (parseBudget tokens.length)
      { TokenStream.ofTokens file source tokens with events := events } with
  | ok document after => exact fun _ => trivial
  | error stop after =>
      cases stop with
      | fault found => exact id
      | exhausted =>
          intro _ name found
          cases found

namespace Node

/-- A node whose tags and calls have distinct attributes at any depth. -/
def DistinctBelow (node : Node) : Prop :=
  Every Distinct node.walk

instance : ComposedIn fun _ => DistinctBelow where
  composed _ := {
    leaf := fun _ distinct => by
      simpa [DistinctBelow, walk, Distinct] using distinct
    branch := fun distinct children => by
      simp only [DistinctBelow, walk, every_cons]
      exact ⟨distinct, every_walkAll_iff.mpr children⟩
    file := by
      intro span use reference children _ children
      cases use with
      | inclusion body =>
          simp only [DistinctBelow, walk, every_cons]
          exact ⟨trivial, every_walkAll_iff.mpr children⟩
      | raw | inheritance => simp [DistinctBelow, walk, Distinct]
    dissolve := fun found => by
      simp only [DistinctBelow, walk, every_cons] at found
      exact every_walkAll_iff.mp found.2 }
  mixinBlock := by simp [DistinctBelow, walk, Distinct, Leaf.Distinct]
  declaration := fun inside => by
    simp only [DistinctBelow, walk, every_cons]
    exact ⟨.nil, every_walkAll_iff.mpr inside⟩

end Node

/-- When tokens form a document, then of the attributes of a tag or of a call in it any two with the
same name are classes. When they form none because of a name that is repeated, then the fault stands
at a token that repeats the name in the head of one tag, and the name is not that of a class. -/
theorem distinct_parse (tokens : List Token) (file source : Option String) :
    Satisfies (parse tokens { file, source })
      (fun document => ∀ node ∈ document.walk, node.Distinct)
      fun fault => fault.NamesRepetition tokens file := by
  have below := satisfies_parse (fun _ => Node.DistinctBelow) tokens file source
  have distinct : Satisfies (parse tokens { file, source })
      (fun document => ∀ node ∈ document.walk, node.Distinct) fun _ => True :=
    below.mono (fun _ found => Node.every_walkAll_iff.mpr found) fun _ _ => trivial
  refine ((namesRepetition_parse tokens file source).and distinct).mono ?_ fun _ => id
  exact fun _ both => both.2

end Offside
