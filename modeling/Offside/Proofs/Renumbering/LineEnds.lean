import Offside.Proofs.Layout.Tokens
import Offside.Proofs.Renumbering.Pipeline

/-!
# Line ends

A template may be written with any of the three customary line ends, and its page is the same. So is
what goes wrong with it, and where. A failure shows the lines of the template as they are written,
unless it is one of cutting the text into tokens.
-/

namespace Offside

open Computing

/-- The line ends other than a newline. -/
inductive LineEnd where
  | carriageReturn
  | both
deriving DecidableEq

namespace LineEnd

/-- How a line end is written. -/
def characters : LineEnd → List Char
  | carriageReturn => ['\r']
  | both => ['\r', '\n']

/-- A text with this line end in the place of each newline. -/
def rewrite (ending : LineEnd) (text : List Char) : List Char :=
  text.flatMap fun character => if character = '\n' then ending.characters else [character]

/-- A source with this line end in the place of each newline. -/
def write (ending : LineEnd) (source : String) : String :=
  String.ofList (ending.rewrite source.toList)

variable (ending : LineEnd)

theorem rewrite_cons_of_ne {character : Char} (other : character ≠ '\n') (rest : List Char) :
    ending.rewrite (character :: rest) = character :: ending.rewrite rest := by
  simp [rewrite, other]

theorem rewrite_newline (rest : List Char) :
    ending.rewrite ('\n' :: rest) = ending.characters ++ ending.rewrite rest := by
  simp [rewrite]

theorem newline_not_mem_rewrite (text : List Char) : '\n' ∉ carriageReturn.rewrite text := by
  induction text with
  | nil => simp [rewrite]
  | cons character rest ih =>
      by_cases newline : character = '\n'
      · subst newline
        simpa [rewrite_newline, characters] using ih
      · simpa [rewrite_cons_of_ne _ newline, Ne.symm newline] using ih

end LineEnd

namespace Text

/-- Behind a carriage return only a newline makes a difference. -/
theorem normalizeNewlines_return {rest : List Char} (other : rest.head? ≠ some '\n') :
    normalizeNewlines ('\r' :: rest) = '\n' :: normalizeNewlines rest := by
  cases rest with
  | nil => rfl
  | cons character rest =>
      rw [normalizeNewlines]
      rintro _ ⟨⟩
      exact other rfl

theorem normalizeNewlines_rewrite (ending : LineEnd) {text : List Char} (plain : '\r' ∉ text) :
    normalizeNewlines (ending.rewrite text) = text := by
  induction text with
  | nil => rfl
  | cons character rest ih =>
      rw [List.mem_cons, not_or] at plain
      by_cases newline : character = '\n'
      · subst newline
        rw [ending.rewrite_newline]
        cases ending with
        | both => exact congrArg _ (ih plain.2)
        | carriageReturn =>
            refine (normalizeNewlines_return fun first => ?_).trans (congrArg _ (ih plain.2))
            exact LineEnd.newline_not_mem_rewrite rest (List.mem_of_head? first)
      · rw [ending.rewrite_cons_of_ne newline, normalizeNewlines_cons_of_ne (Ne.symm plain.1),
          ih plain.2]

theorem dropMark_rewrite (ending : LineEnd) (text : List Char) :
    dropMark (ending.rewrite text) = ending.rewrite (dropMark text) := by
  cases text with
  | nil => rfl
  | cons character rest =>
      by_cases newline : character = '\n'
      · subst newline
        cases ending <;> rfl
      · rw [ending.rewrite_cons_of_ne newline, dropMark, dropMark]
        split
        · rfl
        · rw [ending.rewrite_cons_of_ne newline]

/-- A text is read in the same way, whichever line ends it is written with. -/
theorem asRead_write (ending : LineEnd) {source : String} (plain : '\r' ∉ source.toList) :
    asRead (ending.write source) = asRead source := by
  have plainRest : '\r' ∉ dropMark source.toList := by
    unfold dropMark
    split
    · split
      · simp_all
      · simp_all
    · simp
  rw [asRead, asRead, LineEnd.write, String.toList_ofList, dropMark_rewrite,
    normalizeNewlines_rewrite ending plainRest, normalizeNewlines_eq_self plainRest]

/-- With carriage returns a template has a single line to show. -/
theorem lines_rewrite_carriageReturn (text : List Char) :
    lines (LineEnd.carriageReturn.rewrite text) = [LineEnd.carriageReturn.rewrite text] := by
  have single {text : List Char} (plain : '\n' ∉ text) : lines text = [text] := by
    induction text with
    | nil => rfl
    | cons character rest ih =>
        rw [List.mem_cons, not_or] at plain
        rw [lines, if_neg (Ne.symm plain.1), ih plain.2]
        rfl
  exact single (LineEnd.newline_not_mem_rewrite text)

/-- Lines that end with a carriage return, but for the last one. -/
def withReturns : List (List Char) → List (List Char)
  | [] => []
  | [line] => [line]
  | line :: rest => (line ++ ['\r']) :: withReturns rest

/-- With both characters each line that is shown ends with a carriage return, but for the last
one. -/
theorem lines_rewrite_both (text : List Char) :
    lines (LineEnd.both.rewrite text) = withReturns (lines text) := by
  induction text with
  | nil => rfl
  | cons character rest ih =>
      by_cases newline : character = '\n'
      · subst newline
        rw [LineEnd.rewrite_newline]
        have cut : lines ('\r' :: '\n' :: LineEnd.both.rewrite rest) =
            ['\r'] :: lines (LineEnd.both.rewrite rest) := rfl
        have start : lines ('\n' :: rest) = [] :: lines rest := rfl
        refine cut.trans ?_
        rw [ih, start]
        cases rows : lines rest with
        | nil => exact absurd rows (lines_ne_nil rest)
        | cons row others => rfl
      · rw [LineEnd.rewrite_cons_of_ne _ newline, lines, lines, if_neg newline, if_neg newline, ih]
        rcases lines rest with _ | ⟨row, _ | ⟨next, others⟩⟩ <;> rfl

end Text

/-- The lines of a text as they are shown when it is written with this line end. -/
def LineEnd.rows (text : List Char) : LineEnd → List (List Char)
  | carriageReturn => [carriageReturn.rewrite text]
  | both => Text.withReturns (Text.lines text)

theorem LineEnd.lines_write (ending : LineEnd) (source : String) :
    Text.lines (ending.write source).toList = ending.rows source.toList := by
  rw [LineEnd.write, String.toList_ofList]
  cases ending with
  | carriageReturn => exact Text.lines_rewrite_carriageReturn source.toList
  | both => exact Text.lines_rewrite_both source.toList

/-! ### Pages -/

/-- The failure with another text. -/
def Failure.showing (text : String) (failure : Failure) : Failure :=
  (failure.bare id).attach text

/-- The failure is the same; or it is one of a later stage than the first, comes with the text of a
template, and is the same with another text. -/
inductive Failure.Rewritten (source source' : String) (failure : Failure) : Failure → Prop where
  | same : Rewritten source source' failure failure
  | shown (later : failure.isToken = false) (shown : failure.source = some source) :
      Rewritten source source' failure (failure.showing source')

section

variable {source source' : String}

/-- The texts of a template that is written in two ways. -/
def rewrittenTexts (source source' : String) : TextRelation :=
  fun isToken text text' =>
    text' = text ∨ isToken = false ∧ text = some source ∧ text' = some source'

/-- The message of a failure with an excerpt of these lines. -/
def Failure.textAround (failure : Failure) (message : String) (rows : List (List Char)) : String :=
  Excerpt.header failure.span (some failure.span.column) ++
    Excerpt.context failure.span (some failure.span.column) rows ++ "\n\n" ++ message

/-- With another text only the lines of the excerpt are others. -/
theorem Failure.exists_text_eq {failure : Failure} (shown : failure.source = some source) :
    ∃ message, failure.text = failure.textAround message (Text.lines source.toList) ∧
      ∀ other, (failure.showing other).text =
        failure.textAround message (Text.lines other.toList) := by
  rcases failure with fault | fault | fault | fault | fault | fault
  all_goals
    rcases fault with ⟨cause, span, _⟩
    cases shown
    exact ⟨_, rfl, fun _ => rfl⟩

/-- With other line ends the whole message is the same, or its excerpt shows the lines as they are
written. There is no excerpt below the first line of a template that has carriage returns alone. -/
theorem Failure.Rewritten.text_eq {ending : LineEnd} {failure failure' : Failure}
    (rewritten : failure.Rewritten source (ending.write source) failure') :
    failure'.text = failure.text ∨
      ∃ message, failure.text = failure.textAround message (Text.lines source.toList) ∧
        failure'.text = failure.textAround message (ending.rows source.toList) ∧
        (ending = .carriageReturn → 1 < failure.span.line →
          Excerpt.context failure.span (some failure.span.column) (ending.rows source.toList) =
            "") := by
  cases rewritten with
  | same => exact .inl rfl
  | shown later shown =>
      rcases Failure.exists_text_eq shown with ⟨message, text, others⟩
      refine .inr ⟨message, text, ?_, ?_⟩
      · rw [others, ending.lines_write]
      · rintro rfl below
        exact if_neg fun inside => Nat.not_lt.mpr inside.2 below

/-- A failure is told by its text and the rest. -/
theorem Failure.eq_of_bare (failure : Failure) :
    failure = match failure.source with
      | some text => failure.showing text
      | none => failure.bare id := by
  rcases failure with fault | fault | fault | fault | fault | fault <;>
    rcases fault with ⟨cause, span, _ | text⟩ <;> rfl

theorem Failure.Alike.rewritten {failure failure' : Failure}
    (alike : failure.Alike id (rewrittenTexts source source') failure') :
    failure.Rewritten source source' failure' := by
  have sameShowing (text : String) : failure'.showing text = failure.showing text := by
    rw [showing, showing, alike.bare]
  rcases alike.texts with sameText | ⟨later, shown, shown'⟩
  · have same : failure' = failure := by
      rw [failure.eq_of_bare, failure'.eq_of_bare, sameText]
      cases failure.source with
      | none => exact alike.bare
      | some text => exact sameShowing text
    rw [same]
    exact .same
  · have given : failure' = failure.showing source' := by
      rw [failure'.eq_of_bare, shown']
      exact sameShowing source'
    rw [given]
    exact .shown later shown

theorem alike_tokenize (file : Option String)
    (sameText : Text.asRead source' = Text.asRead source) :
    Parallel (fun _ _ => True)
      (fun tokens tokens' : Array Token =>
        tokens'.toList.map (Token.renumber id) = tokens.toList.map (Token.renumber id))
      (fun fault fault' =>
        (Failure.token fault).Alike id (rewrittenTexts source source') (.token fault'))
      (tokenize source { file }) (tokenize source' { file }) := by
  have sameRun : tokenize source' { file } = tokenize source { file } := by
    unfold tokenize TokenOptions.scanner Scanner.ofSource
    rw [← Text.asRead, ← Text.asRead, sameText]
  have oneOutcome := outcome_of_commutes (commutes_tokenize file source)
  rw [sameRun]
  refine (Parallel.of_outcome fun events events' => ?_).mono ?_ ?_
  · rw [oneOutcome, oneOutcome events']
  · rintro tokens _ rfl
    rfl
  · rintro fault _ rfl
    exact ⟨rfl, .inl rfl⟩

end

/-- A template has the same page with other line ends, or fails for the same reason at the same
place. If it cannot be cut into tokens, or the fault is in another file, then the whole message is
the same; otherwise the message shows the lines as they are written. -/
theorem outcome_renderText_write (options : PageOptions) (read : Reader) (file : Option String)
    (ending : LineEnd) {source : String} (plain : '\r' ∉ source.toList)
    (events events' : Array Event) :
    (∃ page, outcome (renderText options read file source events) = .ok page ∧
        outcome (renderText options read file (ending.write source) events') = .ok page) ∨
      ∃ failure failure', outcome (renderText options read file source events) = .error failure ∧
        outcome (renderText options read file (ending.write source) events') = .error failure' ∧
        failure.Rewritten source (ending.write source) failure' := by
  have alike : Parallel (fun _ _ => True) (fun page page' => page' = page)
      (Failure.Alike id (rewrittenTexts source (ending.write source)))
      (renderText options read file source)
      (renderText options read file (ending.write source)) :=
    alike_renderText (fun _ => rfl) rfl (fun _ _ => .inl rfl) (.inr ⟨rfl, rfl, rfl⟩)
      (alike_tokenize file (Text.asRead_write ending plain))
  rcases alike.outcome events events' with ⟨page, _, done, done', rfl⟩ | ⟨failure, failure', done⟩
  · exact .inl ⟨_, done, done'⟩
  · exact .inr ⟨failure, failure', done.1, done.2.1, done.2.2.rewritten⟩

/-- No file can be read. -/
def noFiles : Reader := fun _ => .error "no such file"

/-- A call of a mixin that is not declared, on the second line. -/
def callSource : String := "p\n+x"

/-- The call, as it is shown. -/
def callFailure (source : String) : Failure :=
  .render ⟨.undefinedMixin "x", ⟨none, 2, 1⟩, some source⟩

theorem outcome_renderText_write_call :
    LineEnd.both.write callSource = "p\r\n+x" ∧
      outcome (renderText {} noFiles none callSource #[]) = .error (callFailure callSource) ∧
      outcome (renderText {} noFiles none "p\r\n+x" #[]) = .error (callFailure "p\r\n+x") ∧
      (callFailure callSource).Rewritten callSource "p\r\n+x" (callFailure "p\r\n+x") := by
  have written : LineEnd.both.write callSource = "p\r\n+x" := by decide +kernel
  have failed : outcome (renderText {} noFiles none callSource #[]) =
      .error (callFailure callSource) := by
    decide +kernel
  have failed' : outcome (renderText {} noFiles none "p\r\n+x" #[]) =
      .error (callFailure "p\r\n+x") := by
    decide +kernel
  refine ⟨written, failed, failed', ?_⟩
  have plain : '\r' ∉ callSource.toList := by decide
  rcases outcome_renderText_write {} noFiles none .both plain #[] #[] with
    ⟨page, done, -⟩ | ⟨failure, failure', done, done', rewritten⟩
  · rw [failed] at done
    cases done
  · rw [written] at done' rewritten
    rw [failed] at done
    rw [failed'] at done'
    cases done
    cases done'
    exact rewritten

end Offside
