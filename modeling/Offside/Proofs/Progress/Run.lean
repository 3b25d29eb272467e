import Offside.Proofs.Progress.Rules
import Offside.Proofs.Provenance.Run

/-!
# A run ends

Every step of a run leaves less text or is the last one, and inside interpolated tags there are only
runs over shorter texts. So a run ends by itself, without any budget, and so do the runs inside it
and the loops inside its steps.
-/

namespace Offside

open Computing Relation Scanner Scanning Text

variable {inner : Scanning Unit} {scanner : Scanner}

/-- A scanner that has ended stays as it is. -/
theorem run_of_ended (ended : scanner.ended = true) {budget : Nat} (positive : 0 < budget) :
    run [] budget scanner = .ok () scanner := by
  rcases Nat.exists_eq_add_of_le' positive with ⟨budget, rfl⟩
  rw [run, get_bind_eq, ended, if_pos rfl]
  rfl

/-- A run that has a budget for every character that is unread does the same with any other such
budget. -/
theorem proceeds_run {budget otherBudget : Nat} (enough : scanner.unread.length + 2 ≤ budget)
    (enoughOther : scanner.unread.length + 2 ≤ otherBudget) :
    Proceeds (run [] budget) (run [] otherBudget) scanner
      fun _ after => after.unread.length ≤ scanner.unread.length := by
  induction budget generalizing scanner otherBudget with
  | zero => omega
  | succ budget ih =>
      rcases Nat.exists_eq_add_of_le' (show 1 ≤ otherBudget by omega) with ⟨otherBudget, rfl⟩
      refine .get_bind ?_
      split
      · exact .pure (Nat.le_refl _)
      · have nests : NestsBelow scanner.unread.length (run [] budget) (run [] otherBudget) :=
          fun nested shorter => ih (by omega) (by omega)
        refine (proceeds_firstMatch nests (Nat.le_refl _) (List.Subset.refl _)).bind ?_
        intro _ middle progresses
        have notLonger := progresses.notLonger
        rcases progresses.reads rfl with ended | shorter
        · refine ⟨?_, fun value after done => ?_⟩
          · rw [run_of_ended ended (by omega), run_of_ended ended (by omega)]
          · rw [run_of_ended ended (by omega)] at done
            cases done
            exact notLonger
        · exact (ih (by omega) (by omega)).mono fun _ after left => Nat.le_trans left notLonger

theorem runAll_eq_run (scanner : Scanner) :
    runAll [] scanner = run [] (scanner.unread.length + 2) scanner :=
  rfl

theorem shortens_runAll : (runAll []).Shortens := by
  intro scanner value after done
  rw [runAll_eq_run] at done
  exact (proceeds_run (Nat.le_refl _) (Nat.le_refl _)).ensures value after done

/-- A step asks for runs inside interpolated tags only where they have less text. -/
theorem firstMatch_congr
    (agrees : ∀ nested : Scanner, nested.unread.length < scanner.unread.length →
      inner nested = runAll [] nested) :
    firstMatch [] inner Step.order scanner = firstMatch [] (runAll []) Step.order scanner := by
  have nests : NestsBelow scanner.unread.length (runAll []) inner :=
    fun nested shorter => ⟨agrees nested shorter, shortens_runAll nested⟩
  exact (proceeds_firstMatch nests (Nat.le_refl _) (List.Subset.refl _)).same

/-- A step that succeeds reads something or is the last one. -/
theorem progresses_firstMatch {after : Scanner}
    (done : firstMatch [] (runAll []) Step.order scanner = .ok () after) :
    Progresses scanner true after := by
  have nests : NestsBelow scanner.unread.length (runAll []) (runAll []) :=
    fun nested _ => .of_ensures (shortens_runAll nested)
  exact (proceeds_firstMatch nests (Nat.le_refl _) (List.Subset.refl _)).ensures () after done

/-- A run is a step and then a run. -/
theorem runAll_eq (running : scanner.ended = false) :
    runAll [] scanner =
      (firstMatch [] (runAll []) Step.order >>= fun _ => runAll []) scanner := by
  have steps : runAll [] scanner =
      (firstMatch [] (run [] (scanner.unread.length + 1)) Step.order >>= fun _ =>
        run [] (scanner.unread.length + 1)) scanner := by
    rw [runAll_eq_run, run, get_bind_eq, running, if_neg Bool.false_ne_true]
  have same : firstMatch [] (run [] (scanner.unread.length + 1)) Step.order scanner =
      firstMatch [] (runAll []) Step.order scanner :=
    firstMatch_congr fun nested shorter => by
      rw [runAll_eq_run]
      exact (proceeds_run (Nat.le_refl _) (by omega)).same
  rw [steps]
  cases done : firstMatch [] (runAll []) Step.order scanner with
  | error fault after => rw [bind_of_error done, bind_of_error (same.trans done)]
  | ok _ middle =>
      rw [bind_of_ok done, bind_of_ok (same.trans done)]
      rw [runAll_eq_run]
      rcases (progresses_firstMatch done).reads rfl with ended | shorter
      · rw [run_of_ended ended (by omega), run_of_ended ended (by omega)]
      · exact (proceeds_run (Nat.le_refl _) (by omega)).same

/-- What a run comes to, told without a budget: step by step, where each step finds what the runs
inside interpolated tags come to, which have less text. -/
inductive RunsTo : Scanner → EStateM.Result (Diagnostic TokenFault) Scanner Unit → Prop where
  | ended {scanner : Scanner} (ended : scanner.ended = true) : RunsTo scanner (.ok () scanner)
  | fault {scanner after : Scanner} {fault : Diagnostic TokenFault} (inner : Scanning Unit)
      (running : scanner.ended = false)
      (nested : ∀ tag : Scanner, tag.unread.length < scanner.unread.length →
        RunsTo tag (inner tag))
      (step : firstMatch [] inner Step.order scanner = .error fault after) :
      RunsTo scanner (.error fault after)
  | advance {scanner middle : Scanner}
      {result : EStateM.Result (Diagnostic TokenFault) Scanner Unit} (inner : Scanning Unit)
      (running : scanner.ended = false)
      (nested : ∀ tag : Scanner, tag.unread.length < scanner.unread.length →
        RunsTo tag (inner tag))
      (step : firstMatch [] inner Step.order scanner = .ok () middle)
      (others : RunsTo middle result) : RunsTo scanner result

/-- Every run comes to something. -/
theorem runsTo_runAll (scanner : Scanner) : RunsTo scanner (runAll [] scanner) := by
  induction length : scanner.unread.length using Nat.strong_induction_on generalizing scanner with
  | _ length' ih =>
      cases running : scanner.ended with
      | true =>
          have same : runAll [] scanner = .ok () scanner := run_of_ended running (by omega)
          rw [same]
          exact .ended running
      | false =>
          have nested (tag : Scanner) (shorter : tag.unread.length < scanner.unread.length) :
              RunsTo tag (runAll [] tag) := ih _ (length ▸ shorter) tag rfl
          rw [runAll_eq running]
          cases done : firstMatch [] (runAll []) Step.order scanner with
          | error fault after =>
              rw [bind_of_error done]
              exact .fault _ running nested done
          | ok _ middle =>
              rw [bind_of_ok done]
              refine .advance _ running nested done ?_
              rcases (progresses_firstMatch done).reads rfl with ended | shorter
              · have same : runAll [] middle = .ok () middle := run_of_ended ended (by omega)
                rw [same]
                exact .ended ended
              · exact nested middle shorter

/-- A run comes to nothing else. -/
theorem eq_of_runsTo {result : EStateM.Result (Diagnostic TokenFault) Scanner Unit}
    (runs : RunsTo scanner result) : result = runAll [] scanner := by
  induction runs with
  | ended ended => exact (run_of_ended ended (Nat.succ_pos _)).symm
  | fault inner running nested step ih =>
      rw [runAll_eq running, bind_of_error ((firstMatch_congr ih).symm.trans step)]
  | advance inner running nested step others ih ihOthers =>
      rw [ihOthers, runAll_eq running, bind_of_ok ((firstMatch_congr ih).symm.trans step)]

/-! ### Along a run -/

section

variable {next : Scanner}

/-- A run does what it does from every state that it comes to. -/
theorem runAll_eq_of_reaches (reaches : ReflTransGen Advances scanner next) :
    runAll [] scanner = runAll [] next := by
  induction reaches with
  | refl => rfl
  | tail _ step ih => rw [ih, runAll_eq step.running, bind_of_ok step.first]

theorem readsTag_runAll : ReadsTag (runAll []) :=
  fun scanner inside oneLine => .get_bind (readsTag_run _ scanner inside oneLine)

/-- Until it ends, a run stays among the lines of its template. -/
theorem amongLines_of_reaches (among : scanner.AmongLines)
    (reaches : ReflTransGen Advances scanner next) (running : next.ended = false) :
    next.AmongLines := by
  induction reaches with
  | refl => exact among
  | tail _ step ih =>
      rcases ensures_lineStep readsTag_runAll (ih step.running) () _ step.first with
        ⟨amongNext, _⟩ | atEnd
      · exact amongNext
      · rw [atEnd.ended] at running
        cases running

/-- From one state to a later one tokens are only added. -/
theorem found_suffix_of_reaches (reaches : ReflTransGen Advances scanner next) :
    scanner.found <:+ next.found := by
  rcases (goesTo_of_reaches scanner.hasRoom_farCorner reaches).found with ⟨added, found, _⟩
  exact ⟨added, found.symm⟩

variable {source : String} {file : Option String} {start : Position} {events : Array Event}

theorem amongLines_of_source
    (reaches : ReflTransGen Advances
      { TokenOptions.scanner { file, start } source with events := events } next)
    (running : next.ended = false) : next.AmongLines := by
  refine amongLines_of_reaches ?_ reaches running
  exact ⟨rfl, rfl, .closed .nil⟩

/-- The tokens of a source begin with those that a state of its run has found. -/
theorem exists_tokens_of_reaches
    (reaches : ReflTransGen Advances
      { TokenOptions.scanner { file, start } source with events := events } next)
    {tokens : Array Token} {after : Array Event}
    (done : tokenize source { file, start } events = .ok tokens after) :
    ∃ later, tokens.toList = next.found.reverse ++ later := by
  unfold tokenize at done
  dsimp only at done
  rw [runAll_eq_of_reaches reaches] at done
  have goes := (goes_runAll #[] _ next next.hasRoom_farCorner).goes
  split at done
  · next last read =>
      cases done
      rw [read] at goes
      rcases goes.found with ⟨added, found, _⟩
      exact ⟨added.reverse, by simp [Scanner.tokens, found]⟩
  · cases done

end

/-! ### The loops inside a step -/

theorem lowers_blankLine (scanner : Scanner) :
    Ensures (blankStep []) scanner (Lowers scanner) := by
  intro matched after done
  change SimpleRule.run Rule.blankLine scanner = _ at done
  unfold SimpleRule.run at done
  split at done
  · next found =>
      cases done
      unfold Rule.blankLine at found
      split at found
      · next rest unread =>
          split at found
          · next others blanks =>
              cases found
              have isRest : IsRest ('\n' :: others) scanner.unread :=
                unread ▸ .cons (blanks ▸ List.dropWhile_suffix _)
              exact .of_length_lt isRest.length_lt
          · cases found
      · cases found
  · cases done
    exact .declined

theorem lowers_includeFilter (scanner : Scanner) :
    Ensures (includeFilterStep []) scanner (Lowers scanner) :=
  (proceeds_filter (keepsLength_of_ruled fun _ => ensures_attributes) .none (Nat.le_refl _)).ensures

/-- The loops inside a step end by themselves. -/
structure LoopsEnd : Prop where
  blankLines : Descends (repeatRound (blankStep [])) (·.unread.length) ∧
    ∀ scanner : Scanner, Loops (repeatRound (blankStep [])) scanner
      (repeatRule (blankStep []) (scanner.unread.length + 1) scanner)
  includeFilters : Descends (repeatRound (includeFilterStep [])) (·.unread.length) ∧
    ∀ (scanner : Scanner) (budget : Nat), scanner.unread.length < budget →
      Loops (repeatRound (includeFilterStep [])) scanner
        (repeatRule (includeFilterStep []) budget scanner)
  attributes : Descends entryRound (·.2.length) ∧
    ∀ (scanner : Scanner) (body : List Char),
      Loops entryRound (scanner, body) (attributeEntries scanner (body.length + 1) body)
  texts : ∀ html, Descends (textRound (runAll []) html) (·.value.length) ∧
    ∀ (scanner : Scanner) (value : List Char),
      Loops (textRound (runAll []) html) ⟨scanner, value, [], 0⟩
        (addRun (runAll []) html value scanner)
  /-- Each further look at a text block has a width, which is smaller than the one before and still
  deeper than the level. -/
  textBlocks : (∀ state next, blockRound (blankStep []) (runAll []) state = .inl next →
      next.1.top = state.1.top ∧ ∃ width, next.2 = some width ∧ state.1.top < width ∧
        width < state.2.getD (state.1.unread.length + 1)) ∧
    ∀ scanner : Scanner, Loops (blockRound (blankStep []) (runAll [])) (scanner, none)
      (textBlockStep [] (runAll []) scanner)

theorem loopsEnd : LoopsEnd where
  blankLines :=
    have reads (scanner : Scanner) := (lowers_blankLine scanner).mono fun _ _ => Lowers.shorter
    ⟨descends_repeatRound reads, fun _ => loops_repeatRule reads (Nat.lt_succ_self _)⟩
  includeFilters :=
    have reads (scanner : Scanner) := (lowers_includeFilter scanner).mono fun _ _ => Lowers.shorter
    ⟨descends_repeatRound reads, fun _ _ => loops_repeatRule reads⟩
  attributes :=
    ⟨descends_entryRound, fun scanner _ => loops_attributeEntries scanner (Nat.lt_succ_self _)⟩
  texts html :=
    ⟨descends_textRound shortens_runAll html, fun scanner value =>
      loops_addText shortens_runAll html ⟨scanner, value, [], 0⟩ (Nat.lt_succ_self _)⟩
  textBlocks :=
    ⟨fun _ _ => narrows_blockRound, fun _ => loops_textBlock (runAll []) (Nat.lt_succ_self _)⟩

/-! ### Cutting a template into tokens -/

/-- A template is cut into tokens by a run that ends: without a budget it comes to exactly one
thing. Each of its steps that succeeds is the last one or leaves less text, and it asks for the runs
inside interpolated tags only where there is less text than it has itself. The loops inside a step
end as well. -/
theorem tokenize_ends (source : String) (options : TokenOptions) (events : Array Event) :
    let start : Scanner := { options.scanner source with events := events }
    (∃ result, RunsTo start result ∧ (∀ other, RunsTo start other → other = result) ∧
      tokenize source { options with plugins := [] } events =
        match result with
        | .ok _ scanner =>
            .ok scanner.tokens
              (scanner.events.push (.lexed scanner.found.length options.file))
        | .error fault scanner => .error fault scanner.events) ∧
    (∀ scanner after : Scanner, firstMatch [] (runAll []) Step.order scanner = .ok () after →
      after.ended = true ∨ after.unread.length < scanner.unread.length) ∧
    (∀ (scanner : Scanner) (inner : Scanning Unit),
      (∀ nested : Scanner, nested.unread.length < scanner.unread.length →
        inner nested = runAll [] nested) →
      firstMatch [] inner Step.order scanner = firstMatch [] (runAll []) Step.order scanner) ∧
    LoopsEnd := by
  intro start
  refine ⟨⟨runAll [] start, runsTo_runAll start, fun _ => eq_of_runsTo, rfl⟩, ?_, ?_, loopsEnd⟩
  · exact fun scanner after done => (progresses_firstMatch done).reads rfl
  · exact fun scanner inner agrees => firstMatch_congr agrees

theorem tokenize_ends_tag :
    let scanner := ({} : TokenOptions).scanner "| a #[b c]"
    ∃ after, firstMatch [] (runAll []) Step.order scanner = .ok () after ∧
      (after.ended = true ∨ after.unread.length < scanner.unread.length) := by
  intro scanner
  have succeeds : (match firstMatch [] (runAll []) Step.order scanner with
      | .ok _ _ => true
      | .error _ _ => false) = true := by
    decide +kernel
  cases done : firstMatch [] (runAll []) Step.order scanner with
  | error fault after => simp [done] at succeeds
  | ok _ after =>
      have ⟨_, progresses, _⟩ := tokenize_ends "| a #[b c]" {} #[]
      exact ⟨after, rfl, progresses scanner after done⟩

end Offside
