import Mathlib.Logic.Relation
import Offside.Proofs.Computation
import Offside.Token.Run

/-!
# Steps of the scanner

A run of the scanner is a chain of steps, each of which tries the rules in order. Where no rule
before a certain one matches, that one makes the step.
-/

namespace Offside

open Computing Relation

section

variable {inner : Scanning Unit} {step : Step} {before rest : List Step} {scanner next : Scanner}

/-- The rule of a step looks at the unread text and passes. -/
def Step.Declines (step : Step) (scanner : Scanner) : Prop :=
  ∀ inner, step.rule [] inner scanner = .ok false scanner

theorem firstMatch_of_declines (declines : step.Declines scanner) :
    firstMatch [] inner (step :: rest) scanner = firstMatch [] inner rest scanner :=
  bind_of_ok (declines inner)

theorem firstMatch_of_matches (found : step.rule [] inner scanner = .ok true next) :
    firstMatch [] inner (step :: rest) scanner = .ok () next :=
  bind_of_ok found

theorem firstMatch_append_of_declines (declines : ∀ other ∈ before, other.Declines scanner) :
    firstMatch [] inner (before ++ rest) scanner = firstMatch [] inner rest scanner := by
  induction before with
  | nil => rfl
  | cons other before ih =>
      have others := List.forall_mem_cons.mp declines
      exact (firstMatch_of_declines others.1).trans (ih others.2)

theorem firstMatch_of_forall_declines (declines : ∀ other ∈ before, other.Declines scanner)
    (found : step.rule [] inner scanner = .ok true next) :
    firstMatch [] inner (before ++ step :: rest) scanner = .ok () next :=
  (firstMatch_append_of_declines declines).trans (firstMatch_of_matches found)

end

theorem repeatRule_of_declines {rule : Scanning Bool} {scanner : Scanner}
    (declines : rule scanner = .ok false scanner)
    (budget : Nat) : repeatRule rule budget scanner = .ok () scanner := by
  cases budget with
  | zero => rfl
  | succ budget => exact bind_of_ok declines

namespace Scanner

/-- One step of a run. Interpolated tags are read to their end. -/
structure Advances (scanner next : Scanner) : Prop where
  running : scanner.ended = false
  first : firstMatch [] (runAll []) Step.order scanner = .ok () next

/-- One step of a run, whatever reads interpolated tags. Each step but the last one reads
something. -/
structure StepsTo (scanner next : Scanner) : Prop where
  running : scanner.ended = false
  first : ∀ inner, firstMatch [] inner Step.order scanner = .ok () next
  reads : next.ended = false → next.unread.length < scanner.unread.length

variable {scanner next : Scanner}

theorem StepsTo.advances (stepped : StepsTo scanner next) : Advances scanner next :=
  ⟨stepped.running, stepped.first _⟩

theorem run_of_ended {budget : Nat} (ended : scanner.ended = true) :
    run [] (budget + 1) scanner = .ok () scanner := by
  refine get_bind_eq.trans ?_
  simp [ended, pure, EStateM.pure]

theorem run_eq_of_firstMatch {budget : Nat} (running : scanner.ended = false)
    (first : firstMatch [] (run [] budget) Step.order scanner = .ok () next) :
    run [] (budget + 1) scanner = run [] budget next := by
  refine get_bind_eq.trans ?_
  simp [running, bind_of_ok first]

theorem StepsTo.run_eq {budget : Nat} (stepped : StepsTo scanner next) :
    run [] (budget + 1) scanner = run [] budget next :=
  run_eq_of_firstMatch stepped.running (stepped.first _)

/-- A chain of steps to the end is a run. -/
theorem run_eq_of_reaches {budget : Nat} (reaches : ReflTransGen StepsTo scanner next)
    (ended : next.ended = true) (enough : scanner.unread.length + 2 ≤ budget) :
    run [] budget scanner = .ok () next := by
  induction reaches using ReflTransGen.head_induction_on generalizing budget with
  | refl =>
      cases budget with
      | zero => simp at enough
      | succ budget => exact run_of_ended ended
  | @head scanner middle stepped chain ih =>
      cases budget with
      | zero => simp at enough
      | succ budget =>
          rw [stepped.run_eq]
          cases done : middle.ended with
          | false =>
              have shorter := stepped.reads done
              exact ih (by omega)
          | true =>
              -- No step leads on from here, so this is the end of the chain.
              rcases chain.cases_head with rfl | ⟨other, further, _⟩
              · cases budget with
                | zero => simp at enough
                | succ budget => exact run_of_ended ended
              · simp [further.running] at done

end Scanner

end Offside
