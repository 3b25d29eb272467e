import Mathlib.Data.List.Infix
import Offside.Proofs.Conservation.Reading

/-!
# Reading with enough budget

The grammar reads within a budget of steps. Two readings with different budgets finish alike when
both are large enough: they give the same value and leave the same tokens, or they fail with the
same fault, but neither of them is out of budget. What they leave is compared with the stream they
started from, so that the tokens that are left bound the budget that is still needed.
-/

namespace Offside

open Computing Parsing

namespace TokenStream

variable {stream middle after : TokenStream} {limit : Nat}

/-- There are not too many tokens in the stream, and behind them there are only end tokens. -/
structure Near (limit : Nat) (stream : TokenStream) : Prop where
  ending : stream.ending.kind = .eos
  length : stream.pending.length < limit

/-- Some tokens were read, or none. -/
structure Shrinks (stream after : TokenStream) : Prop where
  ending : after.ending = stream.ending
  pending : after.pending <:+ stream.pending

/-- At least one token of the stream was read. -/
structure Consumes (stream after : TokenStream) : Prop where
  ending : after.ending = stream.ending
  pending : ∃ token rest, stream.pending = token :: rest ∧ after.pending <:+ rest

namespace Shrinks

theorem refl : stream.Shrinks stream :=
  ⟨rfl, List.suffix_rfl⟩

theorem trans (first : stream.Shrinks middle) (second : middle.Shrinks after) :
    stream.Shrinks after :=
  ⟨second.ending.trans first.ending, second.pending.trans first.pending⟩

theorem ends (shrinks : stream.Shrinks after) (ending : stream.ending.kind = .eos) :
    after.ending.kind = .eos :=
  shrinks.ending ▸ ending

theorem near (shrinks : stream.Shrinks after) (near : stream.Near limit) : after.Near limit :=
  ⟨shrinks.ends near.ending, Nat.lt_of_le_of_lt shrinks.pending.length_le near.length⟩

theorem tail : stream.Shrinks stream.tail :=
  ⟨rfl, List.tail_suffix _⟩

end Shrinks

namespace Consumes

theorem shrinks (consumes : stream.Consumes after) : stream.Shrinks after := by
  rcases consumes.pending with ⟨token, rest, pending, suffix⟩
  exact ⟨consumes.ending, pending ▸ suffix.trans (List.suffix_cons token rest)⟩

theorem trans_shrinks (first : stream.Consumes middle) (second : middle.Shrinks after) :
    stream.Consumes after := by
  rcases first.pending with ⟨token, rest, pending, suffix⟩
  exact ⟨second.ending.trans first.ending, token, rest, pending, second.pending.trans suffix⟩

theorem trans (first : stream.Consumes middle) (second : middle.Consumes after) :
    stream.Consumes after :=
  first.trans_shrinks second.shrinks

theorem length_lt (consumes : stream.Consumes after) :
    after.pending.length < stream.pending.length := by
  rcases consumes.pending with ⟨token, rest, pending, suffix⟩
  rw [pending]
  exact Nat.lt_succ_of_le suffix.length_le

theorem ends (consumes : stream.Consumes after) (ending : stream.ending.kind = .eos) :
    after.ending.kind = .eos :=
  consumes.shrinks.ends ending

theorem near (consumes : stream.Consumes after) (near : stream.Near (limit + 1)) :
    after.Near limit :=
  ⟨consumes.ends near.ending,
    Nat.lt_of_lt_of_le consumes.length_lt (Nat.le_of_lt_succ near.length)⟩

/-- Whatever is no end token is one of the tokens. -/
theorem tail (ending : stream.ending.kind = .eos) (other : stream.next.kind ≠ .eos) :
    stream.Consumes stream.tail := by
  refine ⟨rfl, ?_⟩
  unfold TokenStream.next at other
  unfold TokenStream.tail
  cases pending : stream.pending with
  | nil =>
      rw [pending] at other
      exact absurd ending other
  | cons token rest => exact ⟨token, rest, rfl, List.suffix_rfl⟩

end Consumes

theorem Shrinks.of_consumes (first : stream.Consumes middle) (second : middle.Shrinks after) :
    stream.Shrinks after :=
  first.shrinks.trans second

end TokenStream

open TokenStream

/-- Two readings of a stream finish alike: both give the same value and leave the same stream, which
has a property, or both fail with the same fault. -/
def Parsing.Finish {α : Type} (reading other : Parsing α) (stream : TokenStream)
    (leaves : TokenStream → Prop) : Prop :=
  (∃ value after, reading stream = .ok value after ∧ other stream = .ok value after ∧
    leaves after) ∨
  ∃ fault after, reading stream = .error (.fault fault) after ∧
    other stream = .error (.fault fault) after

namespace Parsing.Finish

variable {α β : Type} {stream : TokenStream} {leaves leavesMore : TokenStream → Prop}
  {reading other : Parsing α} {next otherNext : α → Parsing β}

theorem pure {value : α} (left : leaves stream) :
    Finish (pure value) (pure value) stream leaves :=
  .inl ⟨value, stream, rfl, rfl, left⟩

theorem fail {span : Span} {cause : ParseFault} :
    Finish (fail span cause : Parsing α) (fail span cause) stream leaves :=
  .inr ⟨_, stream, rfl, rfl⟩

theorem mono (finish : Finish reading other stream leaves)
    (more : ∀ after, leaves after → leavesMore after) :
    Finish reading other stream leavesMore := by
  rcases finish with ⟨value, after, done, otherDone, left⟩ | failed
  · exact .inl ⟨value, after, done, otherDone, more after left⟩
  · exact .inr failed

theorem bind (first : Finish reading other stream leaves)
    (second : ∀ value middle, leaves middle →
      Finish (next value) (otherNext value) middle leavesMore) :
    Finish (reading >>= next) (other >>= otherNext) stream leavesMore := by
  unfold Finish
  rcases first with ⟨value, middle, done, otherDone, left⟩ | ⟨fault, after, failed, otherFailed⟩
  · rw [bind_of_ok done, bind_of_ok otherDone]
    exact second value middle left
  · rw [bind_of_error failed, bind_of_error otherFailed]
    exact .inr ⟨fault, after, rfl, rfl⟩

theorem pure_bind {value : α} (given : Finish (next value) (otherNext value) stream leaves) :
    Finish (Pure.pure value >>= next) (Pure.pure value >>= otherNext) stream leaves :=
  given

theorem fail_bind {span : Span} {cause : ParseFault} :
    Finish (Parsing.fail span cause >>= next) (Parsing.fail span cause >>= otherNext) stream
      leaves := by
  have never : Finish (Parsing.fail span cause : Parsing α) (Parsing.fail span cause) stream
      fun _ => False := .fail
  exact never.bind fun _ _ no => no.elim

theorem peek {next otherNext : Token → Parsing β}
    (each : Finish (next stream.next) (otherNext stream.next) stream leaves) :
    Finish (Parsing.peek >>= next) (Parsing.peek >>= otherNext) stream leaves :=
  each

theorem place {span : Span} {next otherNext : Span → Parsing β}
    (each : ∀ placed, Finish (next placed) (otherNext placed) stream leaves) :
    Finish (Parsing.place span >>= next) (Parsing.place span >>= otherNext) stream leaves :=
  each (stream.place span)

theorem textNode {token : Token} {text : String} {next otherNext : Node → Parsing β}
    (each : ∀ node, Finish (next node) (otherNext node) stream leaves) :
    Finish (Parsing.textNode token text >>= next) (Parsing.textNode token text >>= otherNext) stream
      leaves :=
  each (.leaf (stream.place token.span) (.text text false))

theorem advance {next otherNext : Token → Parsing β}
    (each : Finish (next stream.next) (otherNext stream.next) stream.tail leaves) :
    Finish (Parsing.advance >>= next) (Parsing.advance >>= otherNext) stream leaves :=
  each

theorem modify {change : TokenStream → TokenStream} {next otherNext : Unit → Parsing β}
    (each : Finish (next ()) (otherNext ()) (change stream) leaves) :
    Finish (modify change >>= next) (modify change >>= otherNext) stream leaves :=
  each

/-- A token that is expected by another name than that of an end token is one of the tokens. -/
theorem expect {name : String} (ending : stream.ending.kind = .eos)
    (other : name ≠ TokenKind.eos.name) :
    Finish (expect name) (expect name) stream stream.Consumes := by
  refine .peek ?_
  split
  · next named =>
      have noEnd : stream.next.kind ≠ .eos := by
        intro same
        rw [Token.name, same] at named
        exact other named.symm
      exact .inl ⟨_, _, rfl, rfl, .tail ending noEnd⟩
  · exact .fail

theorem expectPath (ending : stream.ending.kind = .eos) :
    Finish expectPath expectPath stream stream.Consumes := by
  refine .peek ?_
  split
  · next kind => exact .advance (.pure (.tail ending (by simp [kind])))
  · exact .fail

/-- A loop finishes when it goes on only behind a token that its round has read. What is spare of
the budget is there for the readings of a round. -/
theorem loop {State : Type} (looping otherLooping : (budget : Nat) → State → Parsing α)
    (leaves : TokenStream → TokenStream → Prop) (spare : Nat) {limit budget other : Nat}
    (trans : ∀ {first middle last : TokenStream}, first.Consumes middle → leaves middle last →
      leaves first last)
    (round : ∀ {stream : TokenStream} {budget other : Nat} (state : State), stream.Near limit →
      stream.pending.length + spare ≤ budget → stream.pending.length + spare ≤ other →
      (∀ {middle : TokenStream}, stream.Consumes middle → ∀ next : State,
        Finish (looping budget next) (otherLooping other next) middle (leaves stream)) →
      Finish (looping (budget + 1) state) (otherLooping (other + 1) state) stream (leaves stream))
    (near : stream.Near limit) (enough : stream.pending.length + spare < budget)
    (enoughOther : stream.pending.length + spare < other) (state : State) :
    Finish (looping budget state) (otherLooping other state) stream (leaves stream) := by
  induction budget generalizing stream other state with
  | zero => cases enough
  | succ budget ih =>
      rcases Nat.exists_eq_add_of_lt enoughOther with ⟨rest, rfl⟩
      refine round state near (by omega) (by omega) fun read next => ?_
      have shorter := read.length_lt
      exact (ih (read.shrinks.near near) (by omega) (by omega) next).mono fun _ => trans read

end Parsing.Finish

end Offside
