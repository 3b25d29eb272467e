import Mathlib.Data.List.Forall2
import Offside.Filter.Apply
import Offside.Proofs.Layout.Nodes
import Offside.Proofs.TextBlock.Texts

/-!
# The text that a filter works on

In a text block without interpolations each token becomes a text node, a newline token the text of a
newline. So the nodes of the block hold its lines, with a newline between two of them, and this is
the text that a filter gets.
-/

namespace Offside

open Computing Grammar Parsing

/-- The tokens of a text block without interpolations. -/
def blockKinds (texts : List (List Char)) : List TokenKind :=
  .startTextBlock :: (textKinds texts ++ [.endTextBlock])

/-- The text of a block: its lines with newlines between them. -/
def blockText (texts : List (List Char)) : String :=
  "\n".intercalate (texts.map String.ofList)

/-- The text for which a token of a text block stands. -/
def TokenKind.StandsFor (kind : TokenKind) (value : String) : Prop :=
  kind = .text value ∨ kind = .newline ∧ value = "\n"

/-- A node that is a text. -/
def Node.IsText (node : Node) (value : String) : Prop :=
  ∃ span, node = .leaf span (.text value false)

section

variable {texts : List (List Char)} {values : List String} {nodes : List Node}

theorem standsFor_textKinds (texts : List (List Char)) :
    List.Forall₂ TokenKind.StandsFor (textKinds texts)
      ((texts.map String.ofList).intersperse "\n") := by
  induction texts with
  | nil => exact .nil
  | cons text texts ih =>
      cases texts with
      | nil => exact .cons (.inl rfl) .nil
      | cons next others => exact .cons (.inl rfl) (.cons (.inr ⟨rfl, rfl⟩) ih)

theorem join_intersperse (values : List String) :
    String.join (values.intersperse "\n") = "\n".intercalate values := by
  induction values with
  | nil => rfl
  | cons value values ih =>
      cases values with
      | nil => simp
      | cons next others =>
          rw [List.intersperse_cons_cons, String.join_cons, String.join_cons, ih,
            String.intercalate_cons_cons, String.append_assoc]

/-- The tokens of a text block are read as texts, up to its end. -/
theorem exists_textBlockNodes_eq (hooks : Hooks) (inner : Grammar) {kinds : List TokenKind}
    (standFor : List.Forall₂ TokenKind.StandsFor kinds values) {tokens : List Token} {close : Token}
    {rest : List Token} (areTokens : tokens.map Token.kind = kinds)
    (closes : close.kind = .endTextBlock) {budget : Nat} (enough : tokens.length < budget)
    (block : Document) (stream : TokenStream) (pending : stream.pending = tokens ++ close :: rest) :
    ∃ nodes, List.Forall₂ Node.IsText nodes values ∧
      textBlockNodes hooks inner budget block stream =
        .ok { block with nodes := block.nodes ++ nodes } { stream with pending := rest } := by
  induction standFor generalizing tokens budget block stream with
  | nil =>
      rcases Nat.exists_eq_add_of_le' (Nat.zero_lt_of_lt enough) with ⟨budget, rfl⟩
      rw [List.map_eq_nil_iff.mp areTokens, List.nil_append] at pending
      have here : stream.next = close := by simp [TokenStream.next, pending]
      refine ⟨[], .nil, ?_⟩
      simp only [textBlockNodes, peek_bind, here, closes, advance_bind, pending, List.tail_cons,
        List.append_nil]
      rfl
  | @cons kind value kinds values stands standFor ih =>
      rcases List.map_eq_cons_iff.mp areTokens with ⟨token, others, rfl, isKind, areOthers⟩
      rcases Nat.exists_eq_add_of_le' (Nat.zero_lt_of_lt enough) with ⟨budget, rfl⟩
      have here : stream.next = token := by simp [TokenStream.next, pending]
      let node : Node := .leaf (stream.place token.span) (.text value false)
      have step : textBlockNodes hooks inner (budget + 1) block stream =
          textBlockNodes hooks inner budget { block with nodes := block.nodes ++ [node] }
            { stream with pending := others ++ close :: rest } := by
        rcases stands with rfl | ⟨rfl, rfl⟩
        all_goals
          simp only [textBlockNodes, peek_bind, here, isKind, advance_bind, pending,
            List.cons_append, List.tail_cons]
          rfl
      have enoughLeft : others.length < budget := by simpa using enough
      rcases ih areOthers enoughLeft { block with nodes := block.nodes ++ [node] }
        { stream with pending := others ++ close :: rest } rfl
        with ⟨nodes, areTexts, read⟩
      refine ⟨node :: nodes, .cons ⟨_, rfl⟩ areTexts, ?_⟩
      rw [step, read]
      simp

theorem bodyText_of_areTexts (areTexts : List.Forall₂ Node.IsText nodes values) :
    bodyText nodes = String.join values := by
  induction areTexts with
  | nil => rfl
  | cons isText _ ih =>
      rcases isText with ⟨span, rfl⟩
      rw [String.join_cons, ← ih]
      simp [bodyText, String.join_cons]

theorem applyToNodes_of_areTexts (set : FilterSet)
    (areTexts : List.Forall₂ Node.IsText nodes values) : set.applyToNodes nodes = pure nodes := by
  induction areTexts with
  | nil => rfl
  | cons isText _ ih =>
      rcases isText with ⟨span, rfl⟩
      simp [FilterSet.applyToNodes, FilterSet.applyToNode, ih]

/-- A filter is read with the lines of its text block for its text, and this is the text that the
filter is applied to. -/
theorem exists_filter_eq (hooks : Hooks) (inner : Grammar) (name : String) (span : Span)
    {budget : Nat} {found : List Attribute} {stream middle : TokenStream}
    {following : List TokenKind} (listed : attributesIfAny budget stream = .ok found middle)
    (pending : middle.pending.map Token.kind = blockKinds texts ++ following)
    (enough : (blockKinds texts).length ≤ budget) :
    ∃ node rest, filter hooks inner (budget + 1) name span stream = .ok node rest ∧
      rest.pending.map Token.kind = following ∧
      ∀ set : FilterSet, set.applyToNode node = (do
        Filtering.count 1
        let text ← set.applyToText name found (blockText texts) span.file span
        return .leaf span (.text text false)) := by
  simp only [blockKinds, List.cons_append, List.append_assoc, List.nil_append,
    List.map_eq_cons_iff, List.map_eq_append_iff] at pending
  rcases pending with ⟨opening, _, areTokens, opens, tokens, _, rfl, isText, close, rest, rfl,
    closes, areRest⟩
  have here : middle.next = opening := by simp [TokenStream.next, areTokens]
  have sameLength := congrArg List.length isText
  have enoughTexts : tokens.length < budget := by
    simp only [blockKinds, List.length_cons, List.length_append] at enough
    simp only [List.length_map] at sameLength
    omega
  rcases exists_textBlockNodes_eq hooks inner (standsFor_textKinds texts) isText closes enoughTexts
    ⟨middle.place opening.span, []⟩ { middle with pending := tokens ++ close :: rest } rfl
    with ⟨nodes, areTexts, read⟩
  refine ⟨.branch span (.filter name found (middle.place opening.span)) nodes,
    { middle with pending := rest }, ?_, areRest, fun set => ?_⟩
  · have block : textBlockAt hooks inner budget span middle =
        .ok ⟨middle.place opening.span, nodes⟩ { middle with pending := rest } := by
      have inside : textBlockIfAny hooks inner budget middle =
          .ok (some ⟨middle.place opening.span, nodes⟩) { middle with pending := rest } := by
        simp only [textBlockIfAny, peek_bind, here, opens, advance_bind, areTokens, List.tail_cons]
        exact bind_of_ok read
      exact bind_of_ok inside
    unfold filter
    refine (bind_of_ok listed).trans ?_
    simp only [peek_bind, here, opens]
    exact bind_of_ok block
  · have text : bodyText nodes = blockText texts :=
      (bodyText_of_areTexts areTexts).trans (join_intersperse _)
    simp [FilterSet.applyToNode, applyToNodes_of_areTexts set areTexts, text]

end

end Offside
