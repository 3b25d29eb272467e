import Offside.Proofs.Provenance.Grammar
import Offside.Proofs.Provenance.Run

/-!
# The places in the document of a source

All spans of a document lie on the lines of its source and carry the name of its file. If the source
is no template, then the failure is on such a line, too, and comes with the text: as it stands in
the file, or, while it is cut into tokens, as it is read.
-/

namespace Offside

open Computing

/-! ### Lines -/

namespace Text

/-- The text of a template as it is read, without a mark and with newlines alone. -/
def asRead (source : String) : List Char :=
  normalizeNewlines (dropMark source.toList)

/-- The number of lines of a text, whichever way they end. -/
def lineCount (source : String) : Nat :=
  (lines (normalizeNewlines source.toList)).length

theorem length_lines (text : List Char) : (lines text).length = text.count '\n' + 1 := by
  induction text with
  | nil => rfl
  | cons character rest ih =>
      unfold lines
      split
      · next newline => simp [ih, newline]
      · next other =>
          rw [List.count_cons_of_ne other, ← ih]
          cases rows : lines rest with
          | nil => exact absurd rows (lines_ne_nil rest)
          | cons row rows => rfl

theorem count_normalizeNewlines_dropMark (text : List Char) :
    (normalizeNewlines (dropMark text)).count '\n' = (normalizeNewlines text).count '\n' := by
  unfold dropMark
  split
  · next character rest =>
      split
      · next mark =>
          have first : normalizeNewlines (byteOrderMark :: rest) =
              byteOrderMark :: normalizeNewlines rest := by
            rw [normalizeNewlines] <;> simp [byteOrderMark]
          rw [mark, first]
          exact (List.count_cons_of_ne (by decide)).symm
      · rfl
  · rfl

/-- A mark in front of the text is on its first line. -/
theorem lineCount_eq (source : String) : lineCount source = 1 + (asRead source).count '\n' := by
  rw [lineCount, length_lines, Nat.add_comm, asRead, count_normalizeNewlines_dropMark]

end Text

/-- A span lies on a line of the text of a file. -/
structure Span.Within (file : Option String) (source : String) (span : Span) : Prop where
  file : span.file = file
  first : 1 ≤ span.line
  last : span.line ≤ Text.lineCount source

/-- If it makes no difference what was noted before, then there is one outcome. -/
theorem outcome_of_commutes {ε α : Type} {action : EStateM ε (Array Event) α}
    (commutes : ∀ log : Array Event, Commutes (log ++ ·) action) (events : Array Event) :
    outcome (action events) = outcome (action #[]) := by
  have same : action (events ++ #[]) = mapState (events ++ ·) (action #[]) := commutes events #[]
  rw [Array.append_empty] at same
  rw [same, outcome_mapState]

/-! ### Tokens -/

section

variable (file : Option String) (source : String)

/-- The tokens of a source lie on its lines, and so does a fault among them. -/
theorem within_tokenize :
    Satisfies (tokenize source { file })
      (fun tokens => ∀ token ∈ tokens.toList, token.span.Within file source)
      fun fault => fault.span.Within file source ∧
        fault.source = some (String.ofList (Text.asRead source)) := by
  have lines : (TokenOptions.scanner { file } source).farCorner.line = Text.lineCount source :=
    (Text.lineCount_eq source).symm
  refine (standsWithin_tokenize source file false ⟨1, 1⟩).mono ?_ ?_
  · intro tokens stand token found
    have stands := stand token found
    exact ⟨stands.file, stands.forward, lines ▸ stands.start.line⟩
  · intro fault reports
    exact ⟨⟨reports.file, reports.forward, lines ▸ reports.room.line⟩, reports.source⟩

/-- What was noted before makes no difference to the tokens. -/
theorem commutes_tokenize (log : Array Event) :
    Commutes (log ++ ·) (tokenize source { file }) := by
  intro events
  have same := (goes_runAll log _ _ (Scanner.hasRoom_farCorner
    { TokenOptions.scanner { file } source with events := events })).agree
  have changed : Scanner.logged log { TokenOptions.scanner { file } source with events := events } =
      { TokenOptions.scanner { file } source with events := log ++ events } := rfl
  unfold Agree at same ⊢
  rw [changed] at same
  unfold tokenize
  dsimp only
  rw [same]
  cases runAll [] { TokenOptions.scanner { file } source with events := events } with
  | error fault scanner => rfl
  | ok value scanner => simp [mapState, Scanner.logged, Scanner.tokens]

end

/-! ### Documents -/

namespace Failure

/-- The text that a failure comes with, if it has one. -/
def source : Failure → Option String
  | token diagnostic => diagnostic.source
  | parse diagnostic => diagnostic.source
  | load diagnostic => diagnostic.source
  | link diagnostic => diagnostic.source
  | filter diagnostic => diagnostic.source
  | render diagnostic => diagnostic.source

/-- How a failure shows a text: as it stands in the file, or, while it is cut into tokens, as it is
read. -/
def shown (text : String) : Failure → String
  | token _ => String.ofList (Text.asRead text)
  | parse _ | load _ | link _ | filter _ | render _ => text

/-- The failure lies on a line of the text of a file, and comes with this text. -/
structure PointsInto (file : Option String) (text : String) (failure : Failure) : Prop where
  within : failure.span.Within file text
  source : failure.source = some (failure.shown text)

end Failure

section

variable (file : Option String) (source : String)

/-- The nodes of the document of a source lie on its lines, and a failure points there. -/
theorem within_ofSource :
    Satisfies (Document.ofSource {} file source)
      (fun document => document.span = ⟨file, 0, 0⟩ ∧
        Node.Every (Node.Placed (Span.Within file source)) document.nodes)
      (Failure.PointsInto file source) := by
  refine .bind (.adaptExcept (within_tokenize file source) ?_) ?_
  · rintro fault ⟨within, shown⟩
    exact ⟨within, shown⟩
  · intro tokens inside
    let site : Site := ⟨file, some source, Span.Within file source⟩
    have owned {span : Span} (first : 1 ≤ span.line) (last : span.line ≤ Text.lineCount source)
        (named : file = none → span.file = none) : site.Owns span := by
      refine ⟨?_, first, last⟩
      cases file with
      | none => exact named rfl
      | some name => rfl
    have tokensOwned : ∀ token ∈ tokens.toList, site.Owns token.span := by
      intro token found
      rcases inside token found with ⟨sameFile, first, last⟩
      exact owned first last sameFile.trans
    have ending : site.Owns (TokenStream.endingOf tokens.toList).span := by
      unfold TokenStream.endingOf
      split
      · next token isLast => exact tokensOwned token (List.mem_of_getLast? isLast)
      · refine owned (Nat.le_refl 1) ?_ fun _ => rfl
        rw [Text.lineCount_eq]
        exact Nat.le_add_right 1 _
    refine .adaptExcept (placed_parse site tokensOwned ending) ?_
    rintro fault ⟨within, shown⟩
    exact ⟨within, shown⟩

/-- What was noted before makes no difference to the document of a source. -/
theorem commutes_ofSource (log : Array Event) :
    Commutes (log ++ ·) (Document.ofSource {} file source) :=
  .bind (commutes_tokenize file source log).adaptExcept fun tokens =>
    (commutes_parse tokens.toList file (some source) log).adaptExcept

/-- So there is one document of a source. -/
theorem outcome_ofSource (events : Array Event) :
    outcome (Document.ofSource {} file source events) =
      outcome (Document.ofSource {} file source #[]) :=
  outcome_of_commutes (commutes_ofSource file source) events

variable {file source}

/-- The document of a source is told by its tokens. -/
theorem outcome_ofSource_of_tokens {tokens : List Token} {document : Document}
    (events : Array Event)
    (cut : (outcome (tokenize source { file } #[])).toOption.map Array.toList = some tokens)
    (parsed : ∀ events,
      outcome (parse tokens { file, source := some source } events) = .ok document) :
    outcome (Document.ofSource {} file source events) = .ok document := by
  rw [outcome_ofSource]
  cases lexed : tokenize source { file } #[] with
  | error fault after => simp [lexed, outcome, Except.toOption] at cut
  | ok found after =>
      obtain rfl : found.toList = tokens := by
        simpa [lexed, outcome, Except.toOption] using cut
      have read := parsed after
      unfold Document.ofSource
      rw [bind_of_ok (adaptExcept_of_ok lexed)]
      cases done : parse found.toList { file, source := some source } after with
      | error fault last => simp [done, outcome] at read
      | ok parsedDocument last =>
          rw [adaptExcept_of_ok done]
          simpa [done, outcome] using read

end

end Offside
