import Offside.Proofs.Layout.Steps
import Offside.Proofs.Provenance.Text

/-!
# Where the tokens of a template stand

Every rule goes forward, so that a whole run does. The tokens of a template, and the fault that ends
the run, stand on the lines of its text, and no further to the right than its length allows. They do
not depend on what was noted before.
-/

namespace Offside

open Computing Relation Scanner Text

variable {log : Array Event} {corner : Position} {scanner : Scanner} {inner : Scanning Unit}

/-! ### Rules that add more than one token -/

namespace Rule

theorem goes_path : Goes path := by
  intro log corner scanner room
  have found : ∃ matched after, path scanner = .ok matched after ∧
      path (scanner.logged log) = .ok matched (after.logged log) ∧ GoesTo corner scanner after := by
    unfold path
    dsimp +instances only [unread_logged]
    split
    · next rest unread =>
        split
        · exact ⟨_, _, rfl, rfl, .refl room⟩
        · have whole : scanner.unread =
              (' ' :: firstLine rest) ++ rest.drop (firstLine rest).length := by
            rw [List.cons_append, firstLine_append_drop, unread]
          have stops := finds_endOfLine? log room whole
            (.path (String.ofList (trim (firstLine rest))))
          rw [stops.same]
          split
          · next declined =>
              rw [declined]
              exact ⟨_, _, rfl, rfl, .refl room⟩
          · next token next behind =>
              rw [behind]
              rcases stops.holds _ behind with ⟨moved, added⟩
              dsimp only [Option.map_some]
              split
              · exact ⟨_, _, rfl, rfl, moved⟩
              · exact ⟨_, _, rfl, rfl, added⟩
    · exact ⟨_, _, rfl, rfl, .refl room⟩
  rcases found with ⟨matched, after, done, changedDone, goes⟩
  exact .of_ok matched done changedDone goes

theorem goes_inheritance {path : Scanning Bool} (goes : Goes path) : Goes (inheritance path) := by
  intro log corner scanner room
  unfold inheritance
  extract_lets announce
  have announces : ∀ keyword, Moves log corner (announce keyword) (announce keyword) scanner := by
    intro keyword
    have emitted := goesTo_emit room .inheritance keyword.length
    refine .modify_bind rfl emitted ?_
    refine (goes log corner _ emitted.room).bind ?_
    intro matched after _ further
    cases matched with
    | true => exact .pure further.room true
    | false => exact .get_bind (.throw (reports_fault further.room _))
  refine .get_bind ?_
  rw [unread_logged, fault_logged]
  split
  · exact announces _
  · split
    · exact announces _
    · split
      · exact .throw (reports_fault room _)
      · exact .pure room false

theorem goes_inclusion {filter path : Scanning Bool} (goesFilter : Goes filter)
    (goes : Goes path) : Goes (inclusion filter path) := by
  intro log corner scanner room
  refine .get_bind ?_
  rw [unread_logged, fault_logged]
  split
  · have emitted := goesTo_emit room .inclusion "include".length
    refine .set_bind rfl emitted ?_
    refine (goes_repeatRule goesFilter _ log corner _ emitted.room).bind ?_
    intro _ middle _ further
    refine (goes log corner _ further.room).bind ?_
    intro matched after _ more
    cases matched with
    | true => exact .pure more.room true
    | false =>
        refine .get_bind ?_
        rw [unread_logged]
        split
        all_goals exact .throw (reports_fault more.room _)
  · split
    · exact .throw (reports_fault room _)
    · exact .pure room false

theorem goes_filter {attributes : Scanning Bool} {block : Option (Scanning Bool)}
    (goesAttributes : Goes attributes) (goes : ∀ rule ∈ block, Goes rule) :
    Goes (filter attributes block) := by
  intro log corner scanner room
  refine .get_bind ?_
  rw [unread_logged]
  split
  · split
    · exact .pure room false
    · next name length _ =>
        have emitted := goesTo_emit room (.filter (String.ofList name)) (1 + length)
        refine .set_bind rfl emitted ?_
        refine (goesAttributes log corner _ emitted.room).bind ?_
        intro _ middle _ further
        cases block with
        | none => exact .pure further.room true
        | some rule =>
            have literal : GoesTo corner middle { middle with markersAllowed := false } :=
              (GoesTo.refl further.room).keep rfl rfl rfl rfl List.suffix_rfl
            refine .modify_bind rfl literal ?_
            refine (goes rule rfl log corner _ literal.room).bind ?_
            intro _ after _ more
            exact .pure more.room true
  · exact .pure room false

theorem goes_dot {block : Scanning Bool} (goes : Goes block) : Goes (dot block) := by
  intro log corner scanner room
  refine .get_bind ?_
  rw [unread_logged]
  split
  · next rest unread =>
      have whole : scanner.unread = ['.'] ++ rest := unread
      have stops := finds_endOfLine? log room whole .dot
      rw [stops.same]
      cases found : scanner.endOfLine? ['.'] rest .dot with
      | none => exact .pure room false
      | some result =>
          have added := (stops.holds result found).2
          refine .set_bind rfl added ?_
          refine (goes log corner _ added.room).bind ?_
          intro _ after _ further
          exact .pure further.room true
  · exact .pure room false

theorem goes_comment {block : Scanning Bool} (goes : Goes block) : Goes (comment block) := by
  intro log corner scanner room
  refine .get_bind ?_
  rw [unread_logged]
  split
  · next rest unread =>
      extract_lets line
      split
      next value buffered _ =>
      have visible : GoesTo corner scanner { scanner with markersAllowed := buffered } :=
        (GoesTo.refl room).keep rfl rfl rfl rfl List.suffix_rfl
      have emitted := visible.trans (goesTo_emit visible.room
        (.comment (String.ofList value) buffered) (2 + line.length))
      refine .set_bind rfl emitted ?_
      refine (goes log corner _ emitted.room).bind ?_
      intro _ after _ further
      exact .pure further.room true
  · exact .pure room false

/-- The line that comes next is read as a run of text, less what stands in front of it. -/
theorem moves_lineRun (goes : Goes inner) (room : scanner.HasRoom corner) {html : Bool}
    {front value : List Char} (cut : firstLine scanner.unread = front ++ value) :
    Moves log corner
      (do
        MonadStateOf.set
          (((scanner.logged log).drop (firstLine scanner.unread).length).right front.length)
        addRun inner html value
        return true)
      (do
        MonadStateOf.set ((scanner.drop (firstLine scanner.unread).length).right front.length)
        addRun inner html value
        return true)
      scanner := by
  have oneLine : '\n' ∉ value := fun newline =>
    newline_not_mem_firstLine (cut ▸ List.mem_append_right front newline)
  have whole : scanner.unread =
      front ++ (value ++ scanner.unread.drop (firstLine scanner.unread).length) := by
    rw [← List.append_assoc, ← cut, firstLine_append_drop]
  have behind : (((scanner.drop (firstLine scanner.unread).length).right front.length).putBack
      value).HasRoom corner := by
    refine room.read rfl ⟨front, whole.symm⟩ ?_
    have length := congrArg List.length whole
    simp only [List.length_append] at length
    simp only [lastColumn, putBack, right, Scanner.drop, Position.right, List.length_append]
    omega
  have moved : GoesTo corner scanner
      ((scanner.drop (firstLine scanner.unread).length).right front.length) :=
    (GoesTo.refl room).move rfl rfl rfl (Nat.le_refl _) behind.of_putBack
  refine .set_bind rfl moved ?_
  refine (moves_addRun goes behind oneLine).bind ?_
  intro _ after _ further
  exact .pure further.room true

theorem goes_text (goes : Goes inner) : Goes (text inner) := by
  intro log corner scanner room
  refine .get_bind ?_
  extract_lets lineChanged runChanged line run
  have runs (front value : List Char) (cut : line = front ++ value) :
      Moves log corner (runChanged front.length value) (run front.length value) scanner :=
    moves_lineRun goes room cut
  have same : lineChanged = line := rfl
  clear_value run runChanged line lineChanged
  subst same
  split
  · exact runs ['|', ' '] _ rfl
  · exact runs ['|'] _ rfl
  · exact runs [] _ rfl
  · exact runs [' '] _ rfl
  · exact .pure room false

theorem goes_html (goes : Goes inner) : Goes (html inner) := by
  intro log corner scanner room
  refine .get_bind ?_
  rw [unread_logged]
  split
  · exact moves_lineRun goes room (List.nil_append _).symm
  · exact .pure room false

end Rule

/-! ### A whole run -/

theorem goes_textBlockStep (goes : Goes inner) :
    Goes (textBlockStep [] inner) :=
  fun _ _ _ room => .get_bind (moves_textBlock goes room fun requested =>
    absurd rfl requested)

theorem goes_rule (goes : Goes inner) (step : Step) :
    Goes (step.rule [] inner) := by
  have goesPath : Goes (pathStep []) := Rule.goes_path
  have goesAttributes : Goes (attributesStep []) := Rule.goes_attributes.run
  have noBlock : ∀ rule ∈ (none : Option (Scanning Bool)), Goes rule := by simp
  have goesFilter : Goes (includeFilterStep []) := Rule.goes_filter goesAttributes noBlock
  have goesBlock : Goes (textBlockStep [] inner) := goes_textBlockStep goes
  have goesSome : ∀ rule ∈ some (textBlockStep [] inner), Goes rule := by
    rintro rule ⟨⟩
    exact goesBlock
  cases step with
  | blank => exact Rule.goes_blankLine.run
  | endOfInput => exact Rule.goes_endOfInput.run
  | endInterpolation => exact Rule.goes_endInterpolation.run
  | yieldSlot => exact (Rule.goes_keywordLine _ _).run
  | doctype => exact Rule.goes_doctype.run
  | default => exact Rule.goes_defaultKeyword.run
  | inheritance => exact Rule.goes_inheritance goesPath
  | append => exact (Rule.goes_namedBlock (by decide) _ _).run
  | prepend => exact (Rule.goes_namedBlock (by decide) _ _).run
  | block => exact (Rule.goes_namedBlock (by decide) _ _).run
  | mixinBlock => exact (Rule.goes_keywordLine _ _).run
  | inclusion => exact Rule.goes_inclusion goesFilter goesPath
  | mixin => exact Rule.goes_mixin.run
  | call => exact Rule.goes_call.run
  | interpolation => exact Rule.goes_interpolation.run
  | tag => exact Rule.goes_tag.run
  | filter => exact Rule.goes_filter goesAttributes goesSome
  | id => exact Rule.goes_id.run
  | dot => exact Rule.goes_dot goesBlock
  | className => exact Rule.goes_className.run
  | attributes => exact goesAttributes
  | indentation => exact Rule.goes_indentation.run
  | text => exact Rule.goes_text goes
  | html => exact Rule.goes_html goes
  | comment => exact Rule.goes_comment goesBlock
  | slash => exact Rule.goes_slash.run
  | colon => exact Rule.goes_colon.run
  | includeFilter => exact goesFilter
  | path => exact goesPath
  | textBlock => exact goesBlock

theorem goes_firstMatch (goes : Goes inner) (steps : List Step) :
    Goes (firstMatch [] inner steps) := by
  intro log corner scanner room
  induction steps generalizing scanner with
  | nil => exact .get_bind (.throw (reports_fault room _))
  | cons step rest ih =>
      refine (goes_rule goes step log corner scanner room).bind ?_
      intro matched middle _ further
      cases matched with
      | true => exact .pure further.room ()
      | false => exact ih middle further.room

/-- A run goes forward. An interpolated tag is read by a run with a smaller budget. -/
theorem goes_run (budget : Nat) : Goes (run [] budget) := by
  induction budget with
  | zero => exact fun _ _ _ room => .pure room ()
  | succ budget ih =>
      intro log corner scanner room
      refine .get_bind ?_
      rw [ended_logged]
      split
      · exact .pure room ()
      · refine (goes_firstMatch ih Step.order log corner scanner room).bind ?_
        intro _ middle _ further
        exact ih log corner middle further.room

theorem goes_runAll : Goes (runAll []) :=
  fun log corner scanner room => .get_bind (goes_run _ log corner scanner room)

namespace Scanner

/-- From one state of a run to a later one. -/
theorem goesTo_of_reaches {next : Scanner} (room : scanner.HasRoom corner)
    (reaches : ReflTransGen Advances scanner next) : GoesTo corner scanner next := by
  induction reaches with
  | refl => exact .refl room
  | @tail middle after _ step further =>
      have goes := (goes_firstMatch goes_runAll Step.order #[] _ middle further.room).goes
      rw [step.first] at goes
      exact further.trans goes

end Scanner

/-- The tokens of a source stand between its start and the corner of its text, and so does a fault
among them. -/
theorem standsWithin_tokenize (source : String) (file : Option String) (interpolated : Bool)
    (start : Position) :
    let scanner := TokenOptions.scanner { file, interpolated, start } source
    Satisfies (tokenize source { file, interpolated, start })
      (fun tokens => ∀ token ∈ tokens.toList, token.StandsWithin file start.line scanner.farCorner)
      (Reports scanner.farCorner scanner) := by
  intro scanner events
  have goes := (goes_runAll #[] _ { scanner with events := events }
    (hasRoom_farCorner { scanner with events := events })).goes
  unfold tokenize
  dsimp only
  cases read : runAll [] { scanner with events := events } with
  | error fault after =>
      rw [read] at goes
      exact ⟨goes.file, goes.source, goes.forward, goes.room⟩
  | ok value after =>
      rw [read] at goes
      rcases goes.found with ⟨added, found, stand⟩
      intro token isFound
      have inAdded : token ∈ added := by
        have inScanner : token ∈ after.found := by simpa [Scanner.tokens] using isFound
        rw [found] at inScanner
        simpa [scanner, TokenOptions.scanner, ofSource, ofText] using inScanner
      exact stand token inAdded

end Offside
