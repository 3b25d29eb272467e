import Offside.Proofs.Translation.Text

/-!
# The tokens of a text that starts at another position

Every rule goes along with the start of the text, so that a whole run does. The tokens of a text
that starts at some position are those of the text that starts at line one and column one, with the
columns of the first line and all lines moved; and so is the fault, if there is one.
-/

namespace Offside

open Computing Relation Scanner Text

variable {start : Position}

/-! ### Rules that add more than one token -/

namespace Rule

theorem movesTo_path : Scanning.MovesTo start path := by
  refine .of_eq fun scanner => ?_
  unfold path
  rw [unread_movedTo]
  split
  · dsimp only
    split
    · rfl
    · rw [endOfLine?_movedTo]
      split
      · next declined =>
          rw [Option.map_eq_none_iff.mp declined]
          rfl
      · next token next behind =>
          rcases Option.map_eq_some_iff.mp behind with ⟨⟨token, next⟩, found, ⟨⟩⟩
          rw [found]
          dsimp only
          split <;> rfl
  · rfl

theorem movesTo_inheritance {path : Scanning Bool} (moves : Scanning.MovesTo start path) :
    Scanning.MovesTo start (inheritance path) := by
  unfold inheritance
  extract_lets announce
  have announces (keyword : String) :
      Scanning.MovesTo start (announce keyword) := by
    refine .modify_bind (fun scanner => emit_movedTo start scanner _ _) ?_
    refine moves.bind fun matched => ?_
    cases matched with
    | true => exact .pure true
    | false => exact .get_bind fun after => .throw _
  refine .get_bind fun scanner => ?_
  rw [unread_movedTo, fault_movedTo]
  split
  · exact announces _
  · split
    · exact announces _
    · split
      · exact .throw _
      · exact .pure false

theorem movesTo_inclusion {filter path : Scanning Bool}
    (movesFilter : Scanning.MovesTo start filter)
    (moves : Scanning.MovesTo start path) :
    Scanning.MovesTo start (inclusion filter path) := by
  refine .get_bind fun scanner => ?_
  rw [unread_movedTo, fault_movedTo]
  split
  · refine .set_bind (emit_movedTo start scanner _ _) ?_
    refine (movesTo_repeatRule movesFilter _).bind fun _ => ?_
    refine moves.bind fun matched => ?_
    cases matched with
    | true => exact .pure true
    | false =>
        refine .get_bind fun stopped => ?_
        rw [unread_movedTo]
        split
        all_goals exact .throw _
  · split
    · exact .throw _
    · exact .pure false

theorem movesTo_filter {attributes : Scanning Bool} {block : Option (Scanning Bool)}
    (movesAttributes : Scanning.MovesTo start attributes)
    (moves : ∀ rule ∈ block, Scanning.MovesTo start rule) :
    Scanning.MovesTo start (filter attributes block) := by
  refine .get_bind fun scanner => ?_
  rw [unread_movedTo]
  split
  · split
    · exact .pure false
    · refine .set_bind (emit_movedTo start scanner _ _) ?_
      refine movesAttributes.bind fun _ => ?_
      cases block with
      | none => exact .pure true
      | some rule =>
          refine .modify_bind (fun _ => rfl) ?_
          exact (moves rule rfl).bind fun _ => .pure true
  · exact .pure false

theorem movesTo_dot {block : Scanning Bool} (moves : Scanning.MovesTo start block) :
    Scanning.MovesTo start (dot block) := by
  refine .get_bind fun scanner => ?_
  rw [unread_movedTo]
  split
  · rw [endOfLine?_movedTo]
    cases scanner.endOfLine? ['.'] _ .dot with
    | none => exact .pure false
    | some found => exact .set_bind rfl (moves.bind fun _ => .pure true)
  · exact .pure false

theorem movesTo_comment {block : Scanning Bool} (moves : Scanning.MovesTo start block) :
    Scanning.MovesTo start (comment block) := by
  refine .get_bind fun scanner => ?_
  rw [unread_movedTo]
  split
  · extract_lets line
    split
    next value buffered _ =>
    refine .set_bind ?_ (moves.bind fun _ => .pure true)
    exact emit_movedTo start { scanner with markersAllowed := buffered } _ _
  · exact .pure false

section

variable {inner : Scanning Unit} (moves : Scanning.MovesTo start inner) (goes : Goes inner)

include moves goes

/-- The line that comes next is read as a run of text. -/
theorem movesTo_lineRun (scanner : Scanner) {html : Bool} {value : List Char}
    (suffix : value <:+ firstLine scanner.unread) (column : Nat) :
    Scanning.GoesAlong start
      (do
        MonadStateOf.set ((scanner.drop (firstLine scanner.unread).length).right column)
        addRun inner html value
        return true)
      (do
        MonadStateOf.set
          (((scanner.movedTo start).drop (firstLine scanner.unread).length).right column)
        addRun inner html value
        return true) := by
  have oneLine : '\n' ∉ value := fun newline => newline_not_mem_firstLine (suffix.subset newline)
  refine .set_bind ?_ ((movesTo_addRun moves goes oneLine).bind fun _ => .pure true)
  rw [drop_movedTo, right_movedTo]

theorem movesTo_text : Scanning.MovesTo start (text inner) := by
  refine .get_bind fun scanner => ?_
  extract_lets line run lineMoved runMoved
  have runs (skipped : Nat) (value : List Char) (suffix : value <:+ line) :
      Scanning.GoesAlong start (run skipped value) (runMoved skipped value) :=
    movesTo_lineRun moves goes scanner suffix skipped
  have same : lineMoved = line := rfl
  clear_value run runMoved line lineMoved
  subst same
  split
  · exact runs _ _ (List.suffix_append ['|', ' '] _)
  · exact runs _ _ (List.suffix_append ['|'] _)
  · exact runs _ _ List.suffix_rfl
  · exact runs _ _ (List.suffix_append [' '] _)
  · exact .pure false

theorem movesTo_html : Scanning.MovesTo start (html inner) := by
  refine .get_bind fun scanner => ?_
  rw [unread_movedTo]
  split
  · exact movesTo_lineRun moves goes scanner List.suffix_rfl 0
  · exact .pure false

end

end Rule

/-! ### A whole run -/

section

variable {inner : Scanning Unit} (moves : Scanning.MovesTo start inner) (goes : Goes inner)

include moves goes

theorem movesTo_textBlockStep :
    Scanning.MovesTo start (textBlockStep [] inner) :=
  .get_bind fun _ => movesTo_textBlock moves goes _ none

theorem movesTo_rule (step : Step) :
    Scanning.MovesTo start (step.rule [] inner) := by
  have path : Scanning.MovesTo start (pathStep []) := Rule.movesTo_path
  have attributes : Scanning.MovesTo start (attributesStep []) :=
    Rule.movesTo_attributes.run
  have filters (block : Option (Scanning Bool))
      (moves : ∀ rule ∈ block, Scanning.MovesTo start rule) :
      Scanning.MovesTo start (Rule.filter (attributesStep []) block) :=
    Rule.movesTo_filter attributes moves
  have filter : Scanning.MovesTo start (includeFilterStep []) := filters none (by simp)
  have block : Scanning.MovesTo start (textBlockStep [] inner) :=
    movesTo_textBlockStep moves goes
  have someBlock : ∀ rule ∈ some (textBlockStep [] inner), Scanning.MovesTo start rule := by
    rintro rule ⟨⟩
    exact block
  cases step with
  | blank => exact Rule.movesTo_blankLine.run
  | endOfInput => exact Rule.movesTo_endOfInput.run
  | endInterpolation => exact Rule.movesTo_endInterpolation.run
  | yieldSlot => exact (Rule.movesTo_keywordLine _ _).run
  | doctype => exact Rule.movesTo_doctype.run
  | default => exact Rule.movesTo_defaultKeyword.run
  | inheritance => exact Rule.movesTo_inheritance path
  | append => exact (Rule.movesTo_namedBlock _ _ _).run
  | prepend => exact (Rule.movesTo_namedBlock _ _ _).run
  | block => exact (Rule.movesTo_namedBlock _ _ _).run
  | mixinBlock => exact (Rule.movesTo_keywordLine _ _).run
  | inclusion => exact Rule.movesTo_inclusion filter path
  | mixin => exact Rule.movesTo_mixin.run
  | call => exact Rule.movesTo_call.run
  | interpolation => exact Rule.movesTo_interpolation.run
  | tag => exact Rule.movesTo_tag.run
  | filter => exact filters (some (textBlockStep [] inner)) someBlock
  | id => exact Rule.movesTo_id.run
  | dot => exact Rule.movesTo_dot block
  | className => exact Rule.movesTo_className.run
  | attributes => exact attributes
  | indentation => exact Rule.movesTo_indentation.run
  | text => exact Rule.movesTo_text moves goes
  | html => exact Rule.movesTo_html moves goes
  | comment => exact Rule.movesTo_comment block
  | slash => exact Rule.movesTo_slash.run
  | colon => exact Rule.movesTo_colon.run
  | includeFilter => exact filter
  | path => exact path
  | textBlock => exact block

theorem movesTo_firstMatch (steps : List Step) :
    Scanning.MovesTo start (firstMatch [] inner steps) := by
  induction steps with
  | nil => exact .get_bind fun scanner => .throw _
  | cons step rest ih =>
      refine (movesTo_rule moves goes step).bind fun matched => ?_
      cases matched with
      | true => exact .pure ()
      | false => exact ih

end

/-- A run goes along with the start of the text. An interpolated tag is read by a run with a
smaller budget. -/
theorem movesTo_run (budget : Nat) : Scanning.MovesTo start (run [] budget) := by
  induction budget with
  | zero => exact .pure ()
  | succ budget ih =>
      refine .get_bind fun scanner => ?_
      rw [ended_movedTo]
      split
      · exact .pure ()
      · exact (movesTo_firstMatch ih (goes_run budget) Step.order).bind fun _ => ih

theorem movesTo_runAll : Scanning.MovesTo start (runAll []) :=
  .get_bind fun _ => movesTo_run _

/-! ### Tokens -/

/-- Where a position of a text comes to be when the text does not start at line one and column one:
the columns of the first line are moved, and all lines are. -/
def Position.startingAt (position start : Position) : Position :=
  if position.line = 1 then
    ⟨start.line, start.column + position.column - 1⟩
  else
    ⟨position.line + start.line - 1, position.column⟩

/-- The span when the text does not start at line one and column one. -/
def Span.startingAt (span : Span) (start : Position) : Span :=
  .start span.file (span.position.startingAt start)

/-- The token when the text does not start at line one and column one. -/
def Token.startingAt (token : Token) (start : Position) : Token :=
  { token with span := token.span.startingAt start, stop := token.stop.startingAt start }

/-- The fault when the text does not start at line one and column one. -/
def Diagnostic.startingAt {κ : Type} (fault : Diagnostic κ) (start : Position) : Diagnostic κ :=
  { fault with span := fault.span.startingAt start }

theorem Position.startingAt_movedTo (position start : Position) :
    (position.movedTo ⟨1, 1⟩).startingAt start = position.movedTo start := by
  unfold startingAt
  rw [line_movedTo]
  by_cases first : position.line = 0
  · simp [movedTo, first, Nat.add_sub_assoc]
  · have below : 1 + position.line ≠ 1 := by omega
    have lines : 1 + position.line + start.line - 1 = start.line + position.line := by omega
    rw [if_neg below, lines]
    simp [movedTo, first]

theorem Span.startingAt_movedTo (span : Span) (start : Position) :
    (span.movedTo ⟨1, 1⟩).startingAt start = span.movedTo start :=
  congrArg (Span.start span.file) (Position.startingAt_movedTo span.position start)

theorem Token.startingAt_movedTo (token : Token) (start : Position) :
    (token.movedTo ⟨1, 1⟩).startingAt start = token.movedTo start := by
  simp [startingAt, movedTo, Span.startingAt_movedTo, Position.startingAt_movedTo]

theorem Diagnostic.startingAt_movedTo {κ : Type} (fault : Diagnostic κ) (start : Position) :
    (fault.movedTo ⟨1, 1⟩).startingAt start = fault.movedTo start := by
  simp [startingAt, movedTo, Span.startingAt_movedTo]

section

variable (source : String) (file : Option String) (interpolated : Bool) (start : Position)
  (events : Array Event)

/-- All texts are told from the one that is counted from line zero and column zero. -/
theorem tokenize_movedTo :
    tokenize source { file, interpolated, start } events =
      match tokenize source { file, interpolated, start := ⟨0, 0⟩ } events with
      | .ok tokens after => .ok (tokens.map (·.movedTo start)) after
      | .error fault after => .error (fault.movedTo start) after := by
  let origin : Scanner :=
    { TokenOptions.scanner { file, interpolated, start := ⟨0, 0⟩ } source with events := events }
  have began : { TokenOptions.scanner { file, interpolated, start } source with events := events } =
      origin.movedTo start := rfl
  unfold tokenize
  dsimp only
  rw [began, movesTo_runAll.eq]
  cases runAll [] origin with
  | error fault after => rfl
  | ok value after => simp [moveResult, Scanner.tokens, movedTo]

/-- The tokens of a text, wherever it starts, are those of the text that starts at line one and
column one. -/
theorem tokenize_startingAt :
    tokenize source { file, interpolated, start } events =
      match tokenize source { file, interpolated, start := ⟨1, 1⟩ } events with
      | .ok tokens after => .ok (tokens.map (·.startingAt start)) after
      | .error fault after => .error (fault.startingAt start) after := by
  rw [tokenize_movedTo source file interpolated start,
    tokenize_movedTo source file interpolated ⟨1, 1⟩]
  cases tokenize source { file, interpolated, start := ⟨0, 0⟩ } events with
  | error fault after => simp [Diagnostic.startingAt_movedTo]
  | ok tokens after => simp [Token.startingAt_movedTo]

end

/-- The text behind an interpolated tag is on the first line, too. -/
example : (outcome (tokenize "a #[b c]\nd" { start := ⟨3, 5⟩ } #[])).toOption.map
    (fun tokens => tokens.toList.map fun token => (token.span.line, token.span.column)) =
      some [(3, 5), (3, 7), (3, 7), (3, 9), (3, 11), (3, 12), (3, 13), (4, 1), (4, 1), (4, 2)] := by
  decide +kernel

/-! ### How far positions go -/

theorem Text.length_normalizeNewlines_le (text : List Char) :
    (normalizeNewlines text).length ≤ text.length := by
  fun_induction normalizeNewlines text with
  | case1 rest ih | case2 rest _ ih | case3 character rest _ _ ih =>
      simp only [List.length_cons]
      omega
  | case4 => exact Nat.le_refl _

theorem Text.length_dropMark_le (text : List Char) : (dropMark text).length ≤ text.length := by
  unfold dropMark
  split
  · split
    · exact Nat.le_succ _
    · exact Nat.le_refl _
  · exact Nat.le_refl _

/-- A text of some length that starts here has no line and no column beyond. -/
def Position.reach (start : Position) (length : Nat) : Position :=
  ⟨start.line + length, start.column + 2 * length⟩

section

variable (source : String) (file : Option String) (interpolated : Bool) (start : Position)

theorem within_reach_farCorner : (start.reach source.length).Within
    (TokenOptions.scanner { file, interpolated, start } source).farCorner := by
  have shorter : (Text.normalizeNewlines (Text.dropMark source.toList)).length ≤ source.length := by
    rw [← String.length_toList]
    exact Nat.le_trans (Text.length_normalizeNewlines_le _) (Text.length_dropMark_le _)
  exact ⟨Nat.add_le_add_left (Nat.le_trans List.count_le_length shorter) _,
    Nat.add_le_add_left (Nat.mul_le_mul_left 2 shorter) _⟩

/-- The start of a text and its length bound all places of its tokens and of a fault among them. So
a counter of lines or columns does not overflow if it can hold the two sums. -/
theorem within_reach_of_tokenize :
    Satisfies (tokenize source { file, interpolated, start })
      (fun tokens => ∀ token ∈ tokens.toList,
        (start.reach source.length).Within token.span.position ∧
          (start.reach source.length).Within token.stop)
      fun fault => (start.reach source.length).Within fault.span.position := by
  have corner := within_reach_farCorner source file interpolated start
  refine (standsWithin_tokenize source file interpolated start).mono ?_ ?_
  · intro tokens stand token found
    have stands := stand token found
    exact ⟨stands.start.mono corner, stands.stop.mono corner⟩
  · exact fun fault reports => reports.room.mono corner

/-- They bound the place of the scanner after every step as well. -/
theorem within_reach_of_reaches (events : Array Event) {next : Scanner}
    (reaches : ReflTransGen Scanner.Advances
      { TokenOptions.scanner { file, interpolated, start } source with events := events } next) :
    (start.reach source.length).Within next.position :=
  (Scanner.goesTo_of_reaches (Scanner.hasRoom_farCorner _) reaches).room.within.mono
    (within_reach_farCorner source file interpolated start)

end

end Offside
