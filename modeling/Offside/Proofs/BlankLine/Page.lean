import Offside.Proofs.BlankLine.Run
import Offside.Proofs.Renumbering.LineEnds

/-!
# Lines of blanks do not matter

One more line of blanks between two lines of a template, or behind its last newline, changes only
the lines on which its tokens stand. So the page is the same, or the error has the same code. A line
of blanks is known by the newlines on both its sides: the first line of a template, and the last one
if no newline ends it, are not skipped, and there blanks are text or indentation.
-/

namespace Offside

open Computing Scanner Text

/-- Neither a text block nor a bracket over several lines is met when a template is read. -/
def isFlatSource (file : Option String) (source : String) : Bool :=
  let scanner := TokenOptions.scanner { file } source
  scanner.isFlatRun (scanner.unread.length + 2)

/-- The code of an error. -/
def Failure.code : Failure → String
  | .token diagnostic => diagnostic.code
  | .parse diagnostic => diagnostic.code
  | .load diagnostic => diagnostic.code
  | .link diagnostic => diagnostic.code
  | .filter diagnostic => diagnostic.code
  | .render diagnostic => diagnostic.code

theorem Failure.code_eq_of_bare {line : Nat → Nat} {failure other : Failure}
    (same : other.bare line = failure.bare line) : other.code = failure.code := by
  have kept (failure : Failure) : (failure.bare line).code = failure.code := by
    cases failure <;> rfl
  rw [← kept, same, kept]

/-- Two computations whose outcomes do not depend on the states run in parallel if these outcomes
are related. -/
theorem parallel_of_outcomes {ε σ α : Type} {values : α → α → Prop} {faults : ε → ε → Prop}
    {action other : EStateM ε σ α} {start start' : σ}
    (both : Both values faults (outcome (action start)) (outcome (other start')))
    (one : ∀ state, outcome (action state) = outcome (action start))
    (one' : ∀ state, outcome (other state) = outcome (other start')) :
    Parallel (fun _ _ => True) values faults action other := by
  intro state state' _
  rw [← one state, ← one' state'] at both
  revert both
  cases action state <;> cases other state' <;> rintro (related | related)
  · exact ⟨related, True.intro⟩
  · exact ⟨related, True.intro⟩

section

variable {file : Option String} {source source' : String} {front blanks back : List Char}
  (text : asRead source = front ++ '\n' :: back)
  (text' : asRead source' = front ++ '\n' :: (blanks ++ '\n' :: back))
  (blank : ∀ character ∈ blanks, isIndentation character = true)
  (flat : isFlatSource file source = true)

include text text' blank flat

theorem both_tokenize :
    Both (fun tokens tokens' : Array Token =>
        tokens'.toList.map Token.lineless = tokens.toList.map Token.lineless) SameReason
      (outcome (tokenize source { file } #[])) (outcome (tokenize source' { file } #[])) := by
  have twin : Twin front ('\n' :: back) ('\n' :: (blanks ++ '\n' :: back))
      (TokenOptions.scanner { file } source) (TokenOptions.scanner { file } source') :=
    ⟨rfl, rfl, text, text', rfl, rfl, rfl, rfl, rfl, rfl⟩
  have same := matches_run (.line blanks back blank) twin ⟨rfl, rfl, .closed .nil⟩ flat
    (Nat.le_refl _) (Nat.le_refl _)
  have started : ∀ source : String, runAll [] (TokenOptions.scanner { file } source) =
      run [] ((TokenOptions.scanner { file } source).unread.length + 2)
        (TokenOptions.scanner { file } source) := fun _ => rfl
  rw [← started, ← started] at same
  have opened : ∀ source : String, { TokenOptions.scanner { file } source with events := #[] } =
      TokenOptions.scanner { file } source := fun _ => rfl
  unfold tokenize
  rw [opened, opened]
  revert same
  cases runAll [] (TokenOptions.scanner { file } source) <;>
    cases runAll [] (TokenOptions.scanner { file } source')
  · rintro ⟨-, found⟩
    refine .ok ?_
    have inOrder := congrArg List.reverse found
    rwa [← List.map_reverse, ← List.map_reverse] at inOrder
  · exact False.elim
  · exact False.elim
  · exact fun failed => .error failed.1

end

/-- If the tokens of two templates are the same but for their lines, or both templates cannot be cut
into tokens for the same reason, then they have the same page, or errors with the same code. -/
theorem parallel_renderText {file : Option String} {source source' : String}
    (both : Both (fun tokens tokens' : Array Token =>
        tokens'.toList.map Token.lineless = tokens.toList.map Token.lineless) SameReason
      (outcome (tokenize source { file } #[])) (outcome (tokenize source' { file } #[])))
    (options : PageOptions) (read : Reader) :
    Parallel (fun _ _ => True) (fun page page' => page' = page)
      (fun failure failure' => failure'.code = failure.code)
      (renderText options read file source) (renderText options read file source') := by
  have one := outcome_of_commutes (commutes_tokenize file source)
  have one' := outcome_of_commutes (commutes_tokenize file source')
  generalize found : outcome (tokenize source { file } #[]) = result at both
  generalize found' : outcome (tokenize source' { file } #[]) = result' at both
  cases both with
  | ok sameTokens =>
      have tokenized : Parallel (fun _ _ => True)
          (fun tokens tokens' : Array Token =>
            tokens'.toList.map Token.lineless = tokens.toList.map Token.lineless)
          (fun fault fault' =>
            (Failure.token fault).Alike (fun _ => 0) (fun _ _ _ => True) (.token fault'))
          (tokenize source { file }) (tokenize source' { file }) := by
        refine parallel_of_outcomes ?_ one one'
        rw [found, found']
        exact .ok sameTokens
      have alike := @alike_renderText (fun _ => 0) (fun _ _ _ => True) options read file source
        source' (fun _ => rfl) rfl (fun _ _ => trivial) trivial tokenized
      exact alike.mono (fun _ _ => id) fun _ _ alike => Failure.code_eq_of_bare alike.bare
  | error sameReason =>
      -- There are no tokens, so that nothing is left to be compared behind the first stage.
      have tokenized : Parallel (fun _ _ => True) (fun _ _ => False) SameReason
          (tokenize source { file }) (tokenize source' { file }) := by
        refine parallel_of_outcomes ?_ one one'
        rw [found, found']
        exact .error sameReason
      have parsed : Parallel (fun _ _ => True) (fun _ _ => False)
          (fun failure failure' => failure'.code = failure.code)
          (Document.ofSource {} file source) (Document.ofSource {} file source') :=
        .bind (.adaptExcept tokenized fun _ _ same => congrArg ("PUGNEUM:" ++ ·) same)
          fun _ _ => False.elim
      have compiled : Parallel (fun _ _ => True) (fun _ _ => False)
          (fun failure failure' => failure'.code = failure.code)
          (compileWithSources options read file source)
          (compileWithSources options read file source') :=
        .bind parsed fun _ _ => False.elim
      exact .bind compiled fun _ _ => False.elim

/-- A template has the same page with one more line of blanks, or an error with the same code. -/
theorem outcome_renderText_blankLine {file : Option String} {source source' : String}
    {front blanks back : List Char} (text : asRead source = front ++ '\n' :: back)
    (text' : asRead source' = front ++ '\n' :: (blanks ++ '\n' :: back))
    (blank : ∀ character ∈ blanks, isIndentation character = true)
    (flat : isFlatSource file source = true) (options : PageOptions) (read : Reader)
    (events events' : Array Event) :
    (∃ page, outcome (renderText options read file source events) = .ok page ∧
        outcome (renderText options read file source' events') = .ok page) ∨
      ∃ failure failure', outcome (renderText options read file source events) = .error failure ∧
        outcome (renderText options read file source' events') = .error failure' ∧
        failure'.code = failure.code := by
  have parallel := parallel_renderText (both_tokenize text text' blank flat) options read
  rcases parallel.outcome events events' with ⟨page, _, done, done', rfl⟩ | failed
  · exact .inl ⟨_, done, done'⟩
  · exact .inr failed

/-- A list, and a paragraph behind it. -/
def listSource : String := "ul\n  li a\np"

/-- The list with one more line of blanks. -/
def spacedListSource : String := "ul\n  li a\n \t\np"

theorem outcome_renderText_blankLine_list :
    isFlatSource none listSource = true ∧
      outcome (renderText {} noFiles none listSource #[]) =
        .ok "<!DOCTYPE html><ul><li>a</li></ul><p></p>" ∧
      outcome (renderText {} noFiles none spacedListSource #[]) =
        .ok "<!DOCTYPE html><ul><li>a</li></ul><p></p>" := by
  have text : asRead listSource = "ul\n  li a".toList ++ '\n' :: ['p'] := by decide +kernel
  have text' : asRead spacedListSource =
      "ul\n  li a".toList ++ '\n' :: ([' ', '\t'] ++ '\n' :: ['p']) := by
    decide +kernel
  have blank : ∀ character ∈ [' ', '\t'], isIndentation character = true := by simp [isIndentation]
  have flat : isFlatSource none listSource = true := by decide +kernel
  have page : outcome (renderText {} noFiles none listSource #[]) =
      .ok "<!DOCTYPE html><ul><li>a</li></ul><p></p>" := by
    decide +kernel
  refine ⟨flat, page, ?_⟩
  rcases outcome_renderText_blankLine text text' blank flat {} noFiles #[] #[] with
    ⟨_, done, done'⟩ | ⟨failure, _, failed, -⟩
  · rw [page] at done
    cases done
    exact done'
  · rw [page] at failed
    cases failed

-- In front of the first line the blanks are text.
example : outcome (renderText {} noFiles none "  \np" #[]) = .ok "<!DOCTYPE html> <p></p>" := by
  decide +kernel

end Offside
