import Offside.Proofs.BlankLine.Rules
import Offside.Proofs.Layout.Scanning

/-!
# A run in two texts

Two scanners that read the same line come to twins with each step. Where the line ends and one more
line of blanks follows in the second text, the run in that text makes one more step, and from there
on both read the same.
-/

namespace Offside

open Computing Scanner Text

variable {front rest rest' : List Char} {scanner other : Scanner} {inner inner' : Scanning Unit}
  {limit budget budget' : Nat}

theorem mirrored_firstMatch {steps : List Step} (listed : ∀ step ∈ steps, step ∈ Step.order)
    (twins : Twins limit rest rest' scanner other)
    (each : ∀ step ∈ steps, Scanning.Mirrored limit rest rest' (step.rule [] inner)
      (step.rule [] inner') scanner other) :
    Scanning.Mirrored limit rest rest' (firstMatch [] inner steps) (firstMatch [] inner' steps)
      scanner other := by
  induction steps with
  | nil => exact .get_bind (.throw twins rfl)
  | cons step steps ih =>
      rw [List.forall_mem_cons] at listed each
      refine Scanning.Mirrored.bind_known each.1 ?_
      intro matched middle middle' read read' further
      cases matched with
      | true => exact .pure further ()
      | false =>
          obtain rfl := ensures_kept_rule listed.1 _ _ read rfl
          obtain rfl := ensures_kept_rule listed.1 _ _ read' rfl
          exact ih listed.2 each.2

theorem run_eq_of_ended (ended : scanner.ended = true) (positive : 0 < budget) :
    run [] budget scanner = .ok () scanner := by
  cases budget with
  | zero => omega
  | succ budget => exact run_of_ended ended

theorem run_succ_eq (running : scanner.ended = false) :
    run [] (budget + 1) scanner =
      (firstMatch [] (run [] budget) Step.order >>= fun _ => run [] budget) scanner := by
  refine get_bind_eq.trans ?_
  rw [if_neg (by simp [running])]

/-! ### Inside an interpolated tag -/

theorem ensures_tagStep (readsTag : ReadsTag inner) (inside : scanner.interpolated = true)
    (oneLine : '\n' ∉ scanner.unread) :
    Ensures (firstMatch [] inner Step.order) scanner fun _ after =>
      Extends scanner after ∧ Reads scanner after := by
  refine ensures_firstMatch (fun later => later = scanner) ?_ rfl
  intro step listed later same matched after done
  subst same
  have fits : later.Fits := fun _ => oneLine
  have ruled : Ruled later matched after := by
    by_cases layout : step = .indentation ∨ step = .endOfInput
    · exact declines_layout inside fits layout _ _ done
    · rw [not_or] at layout
      exact ensures_rule readsTag fits listed layout.1 layout.2 _ _ done
  cases matched with
  | true => exact ⟨ruled.1, ruled.2 rfl⟩
  | false => exact ensures_kept_rule listed _ _ done rfl

/-- Runs that read an interpolated tag to its end do so in the same way. -/
theorem mirrorsTag_run {size : Nat} (enough : size + 2 ≤ budget) (enough' : size + 2 ≤ budget') :
    MirrorsTag size (run [] budget) (run [] budget') := by
  induction budget generalizing budget' size with
  | zero => omega
  | succ budget ih =>
      cases budget' with
      | zero => omega
      | succ budget' =>
          rintro scanner other ⟨front, fits, twin⟩ inside oneLine
          have twins := twin.twins fits
          refine .get_bind ?_
          rw [twin.ended]
          split
          · exact .pure twins ()
          have readsTag := readsTag_run budget
          have step := mirrored_firstMatch (fun _ listed => listed) (twin.twins (Nat.le_refl _))
            fun step => mirrored_rule .nil twin (.inl ⟨rfl, oneLine⟩) (fun _ => rfl) readsTag
              (fun smaller within => @ih budget' smaller (by omega) (by omega))
          refine (step.mono fits).bind_known ?_
          intro _ middle middle' read _ twinsMiddle
          rcases ensures_tagStep readsTag inside oneLine _ _ read with ⟨extended, reads⟩
          rcases twinsMiddle with ⟨left, fitsLeft, twinLeft⟩
          cases ended : middle.ended with
          | true =>
              have endedOther := twinLeft.ended.trans ended
              unfold Scanning.Mirrored
              rw [run_eq_of_ended ended (by omega), run_eq_of_ended endedOther (by omega)]
              exact ⟨rfl, twinLeft.twins fitsLeft⟩
          | false =>
              have shorter : left.length < front.length := by
                have fewer := reads.resolve_left (by simp [ended])
                rwa [twin.unread, twinLeft.unread, List.append_nil, List.append_nil] at fewer
              have insideMiddle := extended.interpolated.trans inside
              have oneLineMiddle := fun newline => oneLine (extended.unread.subset newline)
              exact (@ih budget' left.length (by omega) (by omega) _ _
                (twinLeft.twins (Nat.le_refl _)) insideMiddle oneLineMiddle).mono fitsLeft

/-! ### Among the lines -/

/-- All places that a run comes to are flat. -/
def Scanner.isFlatRun : (budget : Nat) → Scanner → Bool
  | 0, _ => true
  | budget + 1, scanner =>
      scanner.ended || isFlat scanner.unread &&
        match firstMatch [] (run [] budget) Step.order scanner with
        | .ok _ next => isFlatRun budget next
        | .error .. => true

/-- Two scanners have found the same tokens, but for the lines on which these stand. -/
def SameFound (scanner other : Scanner) : Prop :=
  other.found.map Token.lineless = scanner.found.map Token.lineless

/-- The scanner on the same line at another column. -/
def Scanner.atColumn (scanner : Scanner) (column : Nat) : Scanner :=
  { scanner with position := ⟨scanner.position.line, column⟩ }

section

variable {back : List Char} (unread : scanner.unread = '\n' :: back)

include unread

theorem blankLine_atColumn (column : Nat) :
    Rule.blankLine (scanner.atColumn column) = Rule.blankLine scanner := by
  rcases scanner with ⟨_, _, _, text, _, _, _, _, _, _, _⟩
  obtain rfl : text = '\n' :: back := unread
  rfl

theorem exists_measure?_atColumn : ∃ width unit, ∀ column,
    (scanner.atColumn column).measure? = some (width, { scanner.atColumn column with unit }) := by
  unfold Scanner.measure? Scanner.atColumn
  rw [unread]
  dsimp only
  cases scanner.unit with
  | some unit => exact ⟨_, some unit, fun _ => rfl⟩
  | none =>
      by_cases tabs : 0 < indentWidth .tab back
      · exact ⟨indentWidth .tab back, some .tab, fun _ => if_pos tabs⟩
      · by_cases spaces : 0 < indentWidth .space back
        · exact ⟨_, some .space, fun _ => (if_neg tabs).trans (if_pos spaces)⟩
        · exact ⟨0, none, fun _ => (if_neg tabs).trans (if_neg spaces)⟩

theorem indentation_atColumn (column : Nat) :
    Rule.indentation (scanner.atColumn column) = Rule.indentation scanner := by
  rcases exists_measure?_atColumn unread with ⟨width, unit, measured⟩
  have here : scanner.measure? = _ := measured scanner.position.column
  unfold Rule.indentation
  rw [measured, here]
  rfl

theorem indentation_ne_ok_none : Rule.indentation scanner ≠ .ok none := by
  rcases exists_measure?_atColumn unread with ⟨width, unit, measured⟩
  have here : scanner.measure? = _ := measured scanner.position.column
  unfold Rule.indentation
  rw [here]
  dsimp only
  split
  · nofun
  · nofun
  · nofun
  · generalize Scanner.align _ _ = aligned
    cases aligned <;> nofun

/-- Where a line ends, and no blank line follows, all rules before that for indentation decline. -/
theorem declines_of_newline (outside : scanner.interpolated = false)
    (noBlank : Rule.blankLine scanner = none) :
    ∀ step ∈ Step.beforeIndentation, step.Declines scanner := by
  have blank : Step.blank.Declines scanner := fun _ => by
    simp [Step.rule, SimpleRule.run, noBlank]
  exact declines_beforeIndentation unread (declines_endInterpolation outside) blank
    (passesWord_of_noWord rfl) rfl (by decide)

/-- What a run does where a line ends, whatever column that is. A fault leaves the scanner as it
was. -/
theorem exists_run_eq (running : scanner.ended = false) (outside : scanner.interpolated = false) :
    (∃ next, ∀ column, run [] (budget + 1) (scanner.atColumn column) = run [] budget next) ∨
      ∃ fault, ∀ column, run [] (budget + 1) (scanner.atColumn column) =
        .error fault (scanner.atColumn column) := by
  cases blank : Rule.blankLine scanner with
  | some next =>
      refine .inl ⟨next, fun column => run_eq_of_firstMatch running (firstMatch_of_matches ?_)⟩
      simp [Step.rule, SimpleRule.run, blankLine_atColumn unread, blank]
  | none =>
      have declines := fun column => @declines_of_newline (scanner.atColumn column) _ unread outside
        ((blankLine_atColumn unread column).trans blank)
      rcases Step.exists_order_eq_indentation with ⟨others, order⟩
      cases aligned : Rule.indentation scanner with
      | error fault =>
          refine .inr ⟨fault, fun column => ?_⟩
          have failed : Step.indentation.rule [] (run [] budget) (scanner.atColumn column) =
              .error fault (scanner.atColumn column) := by
            simp [Step.rule, CheckedRule.run, indentation_atColumn unread, aligned]
          have runningMoved : (scanner.atColumn column).ended = false := running
          refine (run_succ_eq runningMoved).trans (bind_of_error ?_)
          rw [order, firstMatch_append_of_declines (declines column)]
          exact bind_of_error failed
      | ok found =>
          cases found with
          | none => exact absurd aligned (indentation_ne_ok_none unread)
          | some next =>
              refine .inl ⟨next, fun column => run_eq_of_firstMatch running ?_⟩
              rw [order]
              refine firstMatch_of_forall_declines (declines column) ?_
              simp [Step.rule, CheckedRule.run, indentation_atColumn unread, aligned]

/-- A run that begins where a line ends may begin at any column of that place. -/
theorem matches_run_of_atColumn {column : Nat}
    {result : EStateM.Result (Diagnostic TokenFault) Scanner Unit}
    (running : scanner.ended = false) (outside : scanner.interpolated = false)
    (goes : Matches SameFound (fun _ _ => True) SameReason result
      (run [] (budget + 1) (scanner.atColumn column))) :
    Matches SameFound (fun _ _ => True) SameReason result (run [] (budget + 1) scanner) := by
  rcases @exists_run_eq _ budget _ unread running outside with ⟨next, same⟩ | ⟨fault, failed⟩
  · have here : run [] (budget + 1) scanner = _ := same scanner.position.column
    rw [same] at goes
    rwa [here]
  · -- The scanner stays where it fails, and only its column is another one.
    have here : run [] (budget + 1) scanner = _ := failed scanner.position.column
    rw [failed] at goes
    rw [here]
    cases result with
    | ok => exact goes
    | error => exact goes

end

/-- The run that comes to the line of blanks makes one more step. -/
theorem run_line {blanks back : List Char}
    (blank : ∀ character ∈ blanks, isIndentation character = true)
    (unread : scanner.unread = '\n' :: (blanks ++ '\n' :: back)) (running : scanner.ended = false) :
    run [] (budget + 1) scanner =
      run [] budget { scanner.nextLine with unread := '\n' :: back } := by
  refine run_eq_of_firstMatch running (firstMatch_of_matches ?_)
  have skipped : (blanks ++ '\n' :: back).dropWhile isIndentation = '\n' :: back := by
    rw [List.dropWhile_append_of_pos blank]
    rfl
  simp [Step.rule, SimpleRule.run, Rule.blankLine, unread, skipped]

/-- Runs from twins find the same tokens, or fail for the same reason. -/
theorem matches_run (spaced : Spaced rest rest') (twin : Twin front rest rest' scanner other)
    (among : scanner.AmongLines) (flat : scanner.isFlatRun budget = true)
    (enough : scanner.unread.length + 2 ≤ budget) (enough' : other.unread.length + 2 ≤ budget') :
    Matches SameFound (fun _ _ => True) SameReason (run [] budget scanner)
      (run [] budget' other) := by
  induction budget generalizing front rest rest' scanner other budget' with
  | zero => omega
  | succ budget ih =>
      rw [Scanner.isFlatRun, among.running, Bool.false_or, Bool.and_eq_true] at flat
      rcases flat with ⟨flat, flatNext⟩
      have goesOn : ∀ {front rest rest' : List Char} {other : Scanner} {budget' : Nat},
          Spaced rest rest' → Twin front rest rest' scanner other → (front = [] → rest = []) →
          other.unread.length + 2 ≤ budget' →
          Matches SameFound (fun _ _ => True) SameReason (run [] (budget + 1) scanner)
            (run [] budget' other) := by
        intro front rest rest' other budget' spaced twin ahead enough'
        cases budget' with
        | zero => omega
        | succ budget' =>
            have lengths := congrArg List.length twin.unread
            have lengths' := congrArg List.length twin.unreadOther
            rw [List.length_append] at lengths lengths'
            have readsTag := readsTag_run budget
            have step := mirrored_firstMatch (fun _ listed => listed) (twin.twins (Nat.le_refl _))
              fun step => mirrored_rule spaced twin (.inr flat) ahead readsTag
                (fun size within => @mirrorsTag_run budget budget' size (by omega) (by omega))
            rw [run_succ_eq among.running, run_succ_eq (twin.ended.trans among.running)]
            refine Matches.bind_within (fun _ _ ⟨_, _, later⟩ => later.found) step ?_
            rintro _ _ middle middle' read - - ⟨left, -, twinLeft⟩
            rw [read] at flatNext
            rcases ensures_lineStep readsTag among _ _ read with ⟨amongMiddle, shorter⟩ | atEnd
            · have lengths := congrArg List.length twinLeft.unread
              have lengths' := congrArg List.length twinLeft.unreadOther
              rw [List.length_append] at lengths lengths'
              exact ih spaced twinLeft amongMiddle flatNext (by omega) (by omega)
            · have ended := twinLeft.ended.trans atEnd.ended
              rw [run_eq_of_ended atEnd.ended (by omega), run_eq_of_ended ended (by omega)]
              exact ⟨trivial, twinLeft.found⟩
      by_cases ahead : front = [] → rest = []
      · exact goesOn spaced twin ahead enough'
      · rw [Classical.not_imp] at ahead
        rcases ahead with ⟨rfl, someRest⟩
        cases spaced with
        | nil => exact absurd rfl someRest
        | line blanks back blank =>
            have unread' := twin.unreadOther
            have lengths' := congrArg List.length unread'
            simp only [List.nil_append, List.length_cons, List.length_append] at lengths'
            rcases budget' with _ | _ | budget'
            · omega
            · omega
            have outside := twin.interpolated.trans among.outside
            have running := twin.ended.trans among.running
            rw [run_line blank unread' running]
            have moved : Twin ('\n' :: back) [] [] scanner
                ({ other.nextLine with unread := '\n' :: back }.atColumn scanner.position.column) :=
              { twin with
                unread := by rw [twin.unread, List.append_nil]; rfl
                unreadOther := (List.append_nil _).symm
                column := rfl }
            have fewer : ('\n' :: back).length + 2 ≤ budget' + 1 := by
              rw [List.length_cons]
              omega
            have goes := @goesOn _ _ _ _ (budget' + 1) .nil moved (fun _ => rfl) fewer
            exact matches_run_of_atColumn rfl running outside goes

end Offside
