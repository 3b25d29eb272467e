import Offside.Document.Source
import Offside.Proofs.Conservation.Grammar
import Offside.Proofs.Nesting.Run

/-!
# A document keeps the content of its template

The rounds of a document end at the end of the text, which is the last token of a template. So all
tokens are read, and what they contain is in the document.
-/

namespace Offside

open Computing Parsing TokenStream

variable {stream : TokenStream} {inner : Grammar}

theorem keeps_documentNodes (keeps : inner.KeepsContent) (budget : Nat) (nodes : List Node) :
    Keeps false stream (documentNodes inner budget nodes) fun found content =>
      Node.contentAll found = Node.contentAll nodes ++ content := by
  induction budget generalizing nodes stream with
  | zero => exact .throw
  | succ budget ih =>
      apply Keeps.peek
      split
      · rename_i kind
        exact .ends kind rfl (by simp)
      · rename_i kind
        exact .advance kind (by simp) rfl (ih _)
      · refine .round (Grammar.keeps_html keeps budget) fun nodes middle => (ih _).mono ?_
        intro found content kept
        simpa using kept
      · refine .round (keeps.expression _) fun node middle => (ih _).mono ?_
        intro found content kept
        simpa [Grammar.contentAll_splice] using kept

/-- The rounds of a document end at the end of the text. -/
theorem ensures_documentNodes (budget : Nat) (nodes : List Node) :
    Ensures (documentNodes inner budget nodes) stream fun _ after => after.next.kind = .eos := by
  induction budget generalizing nodes stream with
  | zero => exact .throw
  | succ budget ih =>
      refine .get_bind ?_
      split
      · rename_i kind
        exact .pure kind
      · exact Grammar.ensures_advance_bind (ih _)
      · exact .bind (fun _ _ _ => True.intro) fun _ _ _ => ih _
      · exact .bind (fun _ _ _ => True.intro) fun _ _ _ => ih _

/-- A document that is read has the nodes of its rounds. -/
theorem exists_documentNodes_of_parse {tokens : List Token} {file source : Option String}
    {document : Document} {before after : Array Event}
    (parsed : parse tokens { file, source } before = .ok document after) :
    ∃ last, documentNodes (grammar Hooks.none (parseBudget tokens.length) false)
      (parseBudget tokens.length) []
      { TokenStream.ofTokens file source tokens with events := before } =
        .ok document.nodes last := by
  dsimp only [parse] at parsed
  split at parsed
  · next found last rule =>
      cases parsed
      unfold documentRule at rule
      cases read : documentNodes (grammar Hooks.none (parseBudget tokens.length) false)
          (parseBudget tokens.length) []
          { TokenStream.ofTokens file source tokens with events := before } with
      | ok nodes behind =>
          rw [bind_of_ok read] at rule
          cases rule
          exact ⟨_, rfl⟩
      | error stop behind =>
          rw [bind_of_error read] at rule
          cases rule
  · cases parsed
  · cases parsed

/-- The tokens in front of the only end contain what all of them do. -/
theorem TokenKind.contentOf_eq_of_ends {kinds first second : List TokenKind}
    (parts : kinds ++ [.eos] = first ++ second) (only : .eos ∉ kinds)
    (ends : second.headD .eos = .eos) :
    contentOf false first = contentOf false (kinds ++ [.eos]) := by
  rw [parts, contentOf_append]
  cases second with
  | nil => simp [contentOf]
  | cons kind rest =>
      obtain rfl : kind = .eos := ends
      -- The end that is left is the only one, and nothing follows it.
      have none : rest = [] := by
        by_contra some
        apply only
        have front := congrArg List.dropLast parts
        rw [List.dropLast_concat, List.dropLast_append_of_ne_nil (by simp),
          List.dropLast_cons_of_ne_nil some] at front
        simp [front]
      simp [none, contentOf, content]

/-- Every token of a template is in its document, once and in order, as long as no dot stands
directly in front of a text, a variable or a nested tag: a tag gives that up for its text block. -/
theorem contentAll_of_parse {text : String} {options : TokenOptions} {tokens : Array Token}
    {file source : Option String} {document : Document} {start between before after : Array Event}
    (unplugged : options.plugins = []) (outside : options.interpolated = false)
    (lexed : tokenize text options start = .ok tokens between)
    (parsed : parse tokens.toList { file, source } before = .ok document after)
    (dots : DotsEnd (tokens.toList.map Token.kind)) :
    Node.contentAll document.nodes =
      TokenKind.contentOf false (tokens.toList.map Token.kind) := by
  rcases exists_nested_of_tokenize unplugged outside lexed with ⟨kinds, spelled, nested⟩
  rcases exists_documentNodes_of_parse parsed with ⟨last, read⟩
  have fits : TokenStream.Fits
      { TokenStream.ofTokens file source tokens.toList with events := before } :=
    ⟨kind_endingOf tokens.toList, dots⟩
  have ends := ensures_documentNodes _ _ _ _ read
  rcases keeps_documentNodes (keepsContent_grammar _ false) _ _ fits _ _ read with
    ⟨content, ⟨stays, covers, _⟩, kept⟩
  rcases covers.consumed with ⟨consumed, pending, found, _⟩
  have parts : kinds ++ [.eos] = consumed.map Token.kind ++ last.pending.map Token.kind := by
    rw [← spelled, ← List.map_append, ← pending]
    rfl
  have eos : (last.pending.map Token.kind).headD .eos = .eos := by
    cases left : last.pending with
    | nil => rfl
    | cons token rest => simpa [TokenStream.next, left] using ends
  calc Node.contentAll document.nodes
    _ = content := by rw [kept, Node.contentAll_nil, List.nil_append]
    _ = TokenKind.contentOf false (consumed.map Token.kind) := found.symm
    _ = TokenKind.contentOf false (kinds ++ [.eos]) :=
        TokenKind.contentOf_eq_of_ends parts nested.eos_not_mem eos
    _ = TokenKind.contentOf false (tokens.toList.map Token.kind) := by rw [spelled]

/-- An id with a nested tag, and a tag with a text block. -/
theorem contentAll_of_parse_div :
    ∃ tokens between document after,
      tokenize "#a: b c\np.\n  d" {} #[] = .ok tokens between ∧
      parse tokens.toList {} #[] = .ok document after ∧
      DotsEnd (tokens.toList.map Token.kind) ∧
      Node.contentAll document.nodes =
        [.tag "div", .tag "b", .text "c", .tag "p", .text "d"] := by
  have kinds : (match tokenize "#a: b c\np.\n  d" {} #[] with
      | .ok tokens _ => tokens.toList.map Token.kind
      | .error _ _ => []) =
      [.id "a", .colon, .tag "b", .text "c", .newline, .tag "p", .dot, .startTextBlock,
        .text "d", .endTextBlock, .eos] := by
    decide +kernel
  have parses : (match tokenize "#a: b c\np.\n  d" {} #[] with
      | .ok tokens _ => (parse tokens.toList {} #[] |> outcome).toBool
      | .error _ _ => false) = true := by
    decide +kernel
  cases lexed : tokenize "#a: b c\np.\n  d" {} #[] with
  | error fault after => simp [lexed] at kinds
  | ok tokens between =>
      simp only [lexed] at kinds parses
      cases parsed : parse tokens.toList {} #[] with
      | error fault after => simp [parsed, outcome, Except.toBool] at parses
      | ok document after =>
          have dots : DotsEnd (tokens.toList.map Token.kind) := by
            rw [kinds]
            simp [DotsEnd, TokenKind.isContentOfTag]
          refine ⟨tokens, between, document, after, rfl, parsed, dots, ?_⟩
          rw [contentAll_of_parse rfl rfl lexed parsed dots, kinds]
          rfl

/-- A tag with a dot gives up the tag that is nested in it. -/
example : (outcome (Document.ofSource {} none "p.: b" #[])).toOption.map
    (fun document => Node.contentAll document.nodes) = some [.tag "p"] := by
  decide +kernel

end Offside
