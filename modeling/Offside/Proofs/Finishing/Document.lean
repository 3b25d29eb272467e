import Offside.Proofs.Finishing.Grammar
import Offside.Proofs.Layout.Nodes

/-!
# Reading a document ends

Whatever the tokens are, and in whatever order they stand, a document is read or there is a fault,
and a larger budget makes no difference. What makes a parser run on is looked at one by one: an
expression that reads nothing, a loop that does not mind the end of the tokens, and tokens that are
put back.
-/

namespace Offside

open Computing Parsing TokenStream

/-- With enough budget a reading ends: it gives one value and leaves one stream, which has a
property, or it fails with one fault. -/
def Parsing.Ends {α : Type} (reading : (budget : Nat) → Parsing α) (enough : Nat)
    (stream : TokenStream) (leaves : TokenStream → Prop) : Prop :=
  (∃ value after, (∀ budget, enough ≤ budget → reading budget stream = .ok value after) ∧
    leaves after) ∨
  ∃ fault after, ∀ budget, enough ≤ budget → reading budget stream = .error (.fault fault) after

theorem Parsing.Ends.of_finish {α : Type} {reading : (budget : Nat) → Parsing α} {enough : Nat}
    {stream : TokenStream} {leaves : TokenStream → Prop}
    (finish : ∀ budget, enough ≤ budget →
      Finish (reading enough) (reading budget) stream leaves) :
    Ends reading enough stream leaves := by
  rcases finish enough (Nat.le_refl _) with
    ⟨value, after, done, -, left⟩ | ⟨fault, after, failed, -⟩
  · refine .inl ⟨value, after, fun budget large => ?_, left⟩
    rcases finish budget large with ⟨_, _, same, other, -⟩ | ⟨_, _, same, -⟩
    · cases done.symm.trans same
      exact other
    · cases done.symm.trans same
  · refine .inr ⟨fault, after, fun budget large => ?_⟩
    rcases finish budget large with ⟨_, _, same, -⟩ | ⟨_, _, same, other⟩
    · cases failed.symm.trans same
    · cases failed.symm.trans same
      exact other

namespace Grammar

/-- A layer for each token and two more are enough: an expression reads a token before it asks the
layer below it. -/
theorem finishBelow_grammar (limit : Nat) :
    ∀ layers others inMixin, limit + 2 ≤ layers → limit + 2 ≤ others →
      FinishBelow limit (grammar Hooks.none layers inMixin)
        (grammar Hooks.none others inMixin) := by
  induction limit with
  | zero =>
      intro layers others inMixin _ _
      exact ⟨fun _ near => absurd near.length (Nat.not_lt_zero _),
        fun _ near => absurd near.length (Nat.not_lt_zero _)⟩
  | succ limit ih =>
      intro layers others inMixin enough enoughOther
      rcases exists_eq_succ_of_lt (show 0 < layers by omega) with ⟨layers, rfl⟩
      rcases exists_eq_succ_of_lt (show 0 < others by omega) with ⟨others, rfl⟩
      have below (inMixin : Bool) :
          FinishBelow limit (grammar Hooks.none layers inMixin)
            (grammar Hooks.none others inMixin) :=
        ih layers others inMixin (by omega) (by omega)
      constructor
      · intro stream near
        have short := near.length
        exact finish_expressionRule below near (by omega) (by omega) inMixin
      · intro stream near
        have short := near.length
        exact finish_indentedBlock (below inMixin) near (by omega) (by omega)

end Grammar

section

open Grammar

variable {stream : TokenStream} {limit budget other : Nat}

theorem finish_documentNodes {inner outer : Grammar} (finish : inner.FinishBelow limit outer)
    (near : stream.Near limit) (enough : stream.pending.length + 1 < budget)
    (enoughOther : stream.pending.length + 1 < other) (nodes : List Node) :
    Finish (documentNodes inner budget nodes) (documentNodes outer other nodes) stream
      stream.Shrinks := by
  refine .loop (documentNodes inner) (documentNodes outer) Shrinks 1 Shrinks.of_consumes
    (fun {stream _ _} nodes near enough enoughOther further => .peek ?_) near enough enoughOther
    nodes
  have longer : stream.Near (limit + 1) := ⟨near.ending, Nat.lt_succ_of_lt near.length⟩
  split
  · exact .pure .refl
  · next kind => exact .advance (further (.tail near.ending (by simp [kind])) _)
  · next kind =>
      exact .bind (finish_html finish longer kind enough enoughOther) fun found _ read =>
        further read _
  · exact .bind (finish.expression _ near) fun node _ read => further read _

theorem finish_documentRule (ending : stream.ending.kind = .eos)
    (enough : stream.pending.length + 3 ≤ budget)
    (enoughOther : stream.pending.length + 3 ≤ other) :
    Finish (documentRule Hooks.none budget) (documentRule Hooks.none other) stream
      stream.Shrinks := by
  have near : stream.Near (stream.pending.length + 1) := ⟨ending, Nat.lt_succ_self _⟩
  have finish := finishBelow_grammar (stream.pending.length + 1) budget other false (by omega)
    (by omega)
  refine .bind (finish_documentNodes finish near (by omega) (by omega) []) ?_
  exact fun nodes middle read => .inl ⟨_, middle, rfl, rfl, read⟩

end

/-! ### Where the tokens end -/

section

variable {stream : TokenStream} {name : String}

theorem expect_of_name (named : stream.next.name = name) :
    expect name stream = .ok stream.next stream.tail := by
  rw [expect, peek_bind, if_pos named]
  rfl

theorem expect_of_name_ne (other : stream.next.name ≠ name) :
    expect name stream =
      .error (.fault (stream.fault stream.next.span (.expected name stream.next.name))) stream := by
  rw [expect, peek_bind, if_neg other]
  rfl

end

namespace Grammar

/-- The loops of the grammar stop where the tokens end. Those that may end in front of any token
give what they have, the others fail, and none of them reads anything. -/
structure LoopsStop (stream : TokenStream) : Prop where
  document : ∀ inner budget nodes,
    documentNodes inner (budget + 1) nodes stream = .ok nodes stream
  block : ∀ layers inMixin budget block,
    blockNodes (grammar Hooks.none (layers + 1) inMixin) (budget + 1) block stream =
      .error (.fault (stream.fault stream.next.span (.unexpectedToken "eos"))) stream
  text : ∀ inner blockMode budget nodes,
    textNodes Hooks.none inner blockMode (budget + 1) nodes stream = .ok nodes stream
  html : ∀ inner budget run, htmlRun inner (budget + 1) run stream = .ok run.close stream
  textBlock : ∀ inner budget block,
    textBlockNodes Hooks.none inner (budget + 1) block stream =
      .error (.fault (stream.fault stream.next.span (.expected "end-pipeless-text" "eos"))) stream
  attributes : ∀ budget names found,
    attributeTokens (budget + 1) names found stream =
      .error (.fault (stream.fault stream.next.span (.expected "end-attributes" "eos"))) stream
  tagAttributes : ∀ inner budget seenList parts,
    tagAttributes Hooks.none inner (budget + 1) seenList parts stream = .ok parts stream
  newlines : ∀ budget, skipNewlines (budget + 1) stream = .ok () stream
  includeFilters : ∀ budget found, includeFilters (budget + 1) found stream = .ok found stream

theorem loopsStop {stream : TokenStream} (ends : stream.next.kind = .eos) : LoopsStop stream where
  document inner budget nodes := by
    rw [documentNodes, peek_bind, ends]
    rfl
  block layers inMixin budget block := by
    have failed : (grammar Hooks.none (layers + 1) inMixin).expression stream =
        .error (.fault (stream.fault stream.next.span (.unexpectedToken "eos"))) stream := by
      change expressionRule Hooks.none (grammar Hooks.none layers) inMixin layers stream = _
      simp only [expressionRule, peek_bind, place_bind, Token.name, ends]
      rfl
    rw [blockNodes, peek_bind, ends]
    exact bind_of_error failed
  text inner blockMode budget nodes := by
    rw [textNodes, peek_bind, ends]
    rfl
  html inner budget run := by
    rw [htmlRun, peek_bind, ends]
    rfl
  textBlock inner budget block := by
    simp only [textBlockNodes, peek_bind, Token.name, ends]
    rfl
  attributes budget names found := by
    have other : stream.next.name ≠ "end-attributes" := by
      rw [Token.name, ends]
      decide
    have failed := expect_of_name_ne other
    rw [Token.name, ends] at failed
    rw [attributeTokens, peek_bind, ends]
    exact bind_of_error failed
  tagAttributes inner budget seenList parts := by
    rw [Grammar.tagAttributes, peek_bind, ends]
    rfl
  newlines budget := by
    rw [skipNewlines, peek_bind, ends]
    rfl
  includeFilters budget found := by
    rw [Grammar.includeFilters, peek_bind, ends]
    rfl

end Grammar

/-! ### Tokens that are put back -/

namespace Grammar

/-- The attributes of a list up to its end, if the token that ends them is taken and put back. -/
def attributeTokensTaking : (budget : Nat) → Option (List String) → List Attribute →
    Parsing (Option (List String) × List Attribute)
  | 0, _, _ => throw .exhausted
  | budget + 1, names, found => do
      let token ← advance
      match token.kind with
      | .attributeEntry name value =>
          let span ← place token.span
          let names ←
            match names with
            | some names =>
                if name = "class" then pure (some names)
                else if names.contains name then fail token.span (.duplicateAttribute name)
                else pure (some (names ++ [name]))
            | none => pure none
          attributeTokensTaking budget names (found ++ [⟨span, name, value, true⟩])
      | _ =>
          defer token
          let _ ← expect "end-attributes"
          return (names, found)

/-- Two readings give the same, and where they give a value they leave the same tokens. -/
def SameReading {α : Type} (result other : EStateM.Result ParseStop TokenStream α) : Prop :=
  outcome result = outcome other ∧ ∀ value after, result = .ok value after → other = .ok value after

theorem SameReading.refl {α : Type} (result : EStateM.Result ParseStop TokenStream α) :
    SameReading result result :=
  ⟨rfl, fun _ _ => id⟩

/-- A token that was taken and put back is there to be expected. Past the end there is one end token
more than before when it is not the one that was expected. -/
theorem sameReading_expect {α : Type} (name : String) (value : α) (stream : TokenStream) :
    SameReading
      ((do
        defer stream.next
        let _ ← expect name
        return value : Parsing α) stream.tail)
      ((do
        let _ ← expect name
        return value : Parsing α) stream) := by
  let back : TokenStream := { stream with pending := stream.next :: stream.pending.tail }
  change SameReading ((expect name >>= fun _ => pure value) back)
    ((expect name >>= fun _ => pure value) stream)
  by_cases named : stream.next.name = name
  · have namedBack : back.next.name = name := named
    rw [bind_of_ok (expect_of_name namedBack), bind_of_ok (expect_of_name named)]
    exact .refl _
  · have otherBack : back.next.name ≠ name := named
    rw [bind_of_error (expect_of_name_ne otherBack), bind_of_error (expect_of_name_ne named)]
    exact ⟨rfl, fun _ _ done => nomatch done⟩

/-- It makes no difference to the attributes whether the token that ends them is taken and put
back. -/
theorem sameReading_attributeTokensTaking (budget : Nat) (names : Option (List String))
    (found : List Attribute) (stream : TokenStream) :
    SameReading (attributeTokensTaking budget names found stream)
      (attributeTokens budget names found stream) := by
  induction budget generalizing names found stream with
  | zero => exact .refl _
  | succ budget ih =>
      rw [attributeTokensTaking, attributeTokens, advance_bind, peek_bind]
      cases kind : stream.next.kind
      case attributeEntry name value =>
        simp only [advance_bind, place_bind]
        cases names with
        | none => exact ih _ _ _
        | some names =>
            dsimp only
            split
            · exact ih _ _ _
            · split
              · exact .refl _
              · exact ih _ _ _
      all_goals exact sameReading_expect _ _ _

/-- In front of an id or a class stands a tag that is not written. -/
theorem expressionRule_of_selector (hooks : Hooks) (layer : Bool → Grammar) (inMixin : Bool)
    (budget : Nat) {stream : TokenStream}
    (begins : ∃ value, stream.next.kind = .id value ∨ stream.next.kind = .className value) :
    expressionRule hooks layer inMixin budget stream =
      (do
        defer ⟨.tag "div", stream.next.span, stream.next.stop⟩
        expressionRule hooks layer inMixin budget) stream := by
  rcases begins with ⟨value, kind | kind⟩
  · rw [expressionRule, peek_bind, place_bind, kind]
    rfl
  · rw [expressionRule, peek_bind, place_bind, kind]
    rfl

end Grammar

/-! ### A whole document -/

/-- An expression that is read takes at least one token. -/
theorem ends_expression {stream : TokenStream} (ending : stream.ending.kind = .eos)
    (inMixin : Bool) :
    Ends (fun layers => (grammar Hooks.none layers inMixin).expression)
      (stream.pending.length + 3) stream stream.Consumes := by
  refine .of_finish fun layers large => ?_
  have finish := Grammar.finishBelow_grammar (stream.pending.length + 1)
    (stream.pending.length + 3) layers inMixin (by omega) (by omega)
  exact finish.expression stream ⟨ending, Nat.lt_succ_self _⟩

/-- A document is read, or there is a fault; a larger budget makes no difference. -/
theorem ends_parse (tokens : List Token) (file source : Option String) (events : Array Event) :
    let start : TokenStream := ⟨file, source, tokens, endingOf tokens, events⟩
    (∃ document after,
      (∀ budget, tokens.length + 3 ≤ budget →
        documentRule Hooks.none budget start = .ok document after) ∧
      parse tokens { file, source } events =
        .ok document (after.events.push (.parsed document.nodes.length file))) ∨
    ∃ fault after,
      (∀ budget, tokens.length + 3 ≤ budget →
        documentRule Hooks.none budget start = .error (.fault fault) after) ∧
      parse tokens { file, source } events = .error fault after.events := by
  intro start
  have ending : start.ending.kind = .eos := kind_endingOf tokens
  have ends : Ends (documentRule Hooks.none) (tokens.length + 3) start start.Shrinks :=
    .of_finish fun budget large => finish_documentRule ending (Nat.le_refl _) large
  have enough : tokens.length + 3 ≤ parseBudget tokens.length := by
    unfold parseBudget
    omega
  rcases ends with ⟨document, after, done, -⟩ | ⟨fault, after, failed⟩
  · refine .inl ⟨document, after, done, ?_⟩
    have read := done _ enough
    unfold parse
    dsimp only
    split
    · next found =>
        cases read.symm.trans found
        rfl
    · next found => cases read.symm.trans found
    · next found => cases read.symm.trans found
  · refine .inr ⟨fault, after, failed, ?_⟩
    have stopped := failed _ enough
    unfold parse
    dsimp only
    split
    · next found => cases stopped.symm.trans found
    · next found =>
        cases stopped.symm.trans found
        rfl
    · next found => cases stopped.symm.trans found

/-- Reading a document ends, whatever the tokens are. Every expression that is read takes at least
one of the tokens, whichever are still there, also an id or a class, in front of which a tag is put.
Where the tokens end, every loop stops, also if an end token was taken there and put back, and it
makes no difference to attributes whether the token behind them is taken and put back. -/
theorem parse_ends (tokens : List Token) (file source : Option String) (events : Array Event) :
    let streamOf (pending : List Token) : TokenStream :=
      ⟨file, source, pending, endingOf tokens, events⟩
    ((∃ document after,
        (∀ budget, tokens.length + 3 ≤ budget →
          documentRule Hooks.none budget (streamOf tokens) = .ok document after) ∧
        parse tokens { file, source } events =
          .ok document (after.events.push (.parsed document.nodes.length file))) ∨
      ∃ fault after,
        (∀ budget, tokens.length + 3 ≤ budget →
          documentRule Hooks.none budget (streamOf tokens) = .error (.fault fault) after) ∧
        parse tokens { file, source } events = .error fault after.events) ∧
    (∀ pending inMixin,
      Ends (fun layers => (grammar Hooks.none layers inMixin).expression) (pending.length + 3)
        (streamOf pending) (streamOf pending).Consumes) ∧
    (∀ layer inMixin budget (stream : TokenStream),
      (∃ value, stream.next.kind = .id value ∨ stream.next.kind = .className value) →
      Grammar.expressionRule Hooks.none layer inMixin budget stream =
        (do
          defer ⟨.tag "div", stream.next.span, stream.next.stop⟩
          Grammar.expressionRule Hooks.none layer inMixin budget) stream) ∧
    (∀ stream : TokenStream, stream.next.kind = .eos →
      Grammar.LoopsStop stream ∧
      ∃ after, (advance >>= defer) stream = .ok () after ∧ Grammar.LoopsStop after) ∧
    ∀ budget names found stream,
      Grammar.SameReading (Grammar.attributeTokensTaking budget names found stream)
        (Grammar.attributeTokens budget names found stream) := by
  intro streamOf
  refine ⟨ends_parse tokens file source events, fun pending inMixin => ?_,
    fun layer inMixin budget stream begins => ?_, fun stream ends => ⟨Grammar.loopsStop ends, ?_⟩,
    Grammar.sameReading_attributeTokensTaking⟩
  · have ending : (streamOf pending).ending.kind = .eos := kind_endingOf tokens
    exact ends_expression ending inMixin
  · exact Grammar.expressionRule_of_selector Hooks.none layer inMixin budget begins
  · let back : TokenStream := { stream with pending := stream.next :: stream.pending.tail }
    have same : back.next = stream.next := rfl
    exact ⟨back, rfl, Grammar.loopsStop (same ▸ ends)⟩

theorem parse_ends_selector :
    let tokens : List Token := [⟨.id "menu", ⟨none, 1, 1⟩, ⟨1, 6⟩⟩]
    let start := TokenStream.ofTokens none none tokens
    Grammar.expressionRule Hooks.none (grammar Hooks.none 3) false 3 start =
      (do
        defer ⟨.tag "div", ⟨none, 1, 1⟩, ⟨1, 6⟩⟩
        Grammar.expressionRule Hooks.none (grammar Hooks.none 3) false 3) start ∧
    Grammar.LoopsStop start.tail := by
  intro tokens start
  have ⟨_, _, selector, stops, _⟩ := parse_ends tokens none none #[]
  exact ⟨selector _ _ _ start ⟨"menu", .inl rfl⟩, (stops start.tail rfl).1⟩

end Offside
