import Mathlib.Data.List.Chain
import Offside.Grammar.Expression
import Offside.Proofs.Computation
import Offside.Proofs.Conservation.Content

/-!
# What is read from a stream of tokens

A computation that reads tokens keeps their content when what it gives contains the same as the
tokens it has read. Such computations can be put together.
-/

namespace Offside

open Computing Parsing

/-- Where a tag gives up what stands behind its dot: a text, a variable or another tag. -/
def TokenKind.isContentOfTag : TokenKind → Bool
  | .text _ | .code .. | .colon => true
  | _ => false

/-- Behind a dot nothing follows that its tag would not keep. -/
def DotsEnd (kinds : List TokenKind) : Prop :=
  kinds.IsChain fun first second => first = .dot → second.isContentOfTag = false

theorem kind_endingOf (tokens : List Token) : (TokenStream.endingOf tokens).kind = .eos := by
  unfold TokenStream.endingOf
  split <;> rfl

namespace TokenStream

/-- The end of the text stands behind the tokens, and their dots end what they stand behind. -/
structure Fits (stream : TokenStream) : Prop where
  ending : stream.ending.kind = .eos
  dots : DotsEnd (stream.pending.map Token.kind)

/-- The stream without its next token. -/
def tail (stream : TokenStream) : TokenStream :=
  { stream with pending := stream.pending.tail }

/-- Some tokens with a certain content were read, and then the head of a tag goes on or it does
not. -/
structure Covers (inHead stays : Bool) (stream after : TokenStream) (content : List TokenKind) :
    Prop where
  ending : after.ending = stream.ending
  consumed : ∃ tokens, stream.pending = tokens ++ after.pending ∧
    TokenKind.contentOf inHead (tokens.map Token.kind) = content ∧
      TokenKind.headBehindAll inHead (tokens.map Token.kind) = stays

/-- Some tokens with a certain content were read, and no head of a tag goes on behind them. -/
def Reads (inHead : Bool) (stream after : TokenStream) (content : List TokenKind) : Prop :=
  ∃ stays, Covers inHead stays stream after content ∧
    (stays = true → after.next.kind.isHead = false)

variable {inHead stays last : Bool} {stream middle after : TokenStream}
  {content more : List TokenKind}

theorem Covers.refl : Covers inHead inHead stream stream [] :=
  ⟨rfl, [], rfl, rfl, rfl⟩

theorem Covers.trans (first : Covers inHead stays stream middle content)
    (second : Covers stays last middle after more) :
    Covers inHead last stream after (content ++ more) := by
  rcases first.consumed with ⟨tokens, pending, rfl, rfl⟩
  rcases second.consumed with ⟨others, pendingMiddle, rfl, rfl⟩
  refine ⟨second.ending.trans first.ending, tokens ++ others, ?_, ?_, ?_⟩
  · rw [pending, pendingMiddle, List.append_assoc]
  · rw [List.map_append, TokenKind.contentOf_append]
  · rw [List.map_append, TokenKind.headBehindAll_append]

theorem Covers.fits (covers : Covers inHead stays stream after content) (fits : stream.Fits) :
    after.Fits := by
  rcases covers.consumed with ⟨tokens, pending, _, _⟩
  refine ⟨covers.ending ▸ fits.ending, ?_⟩
  have dots := fits.dots
  rw [pending, List.map_append] at dots
  exact List.IsChain.right_of_append dots

theorem Reads.fits (reads : Reads inHead stream after content) (fits : stream.Fits) :
    after.Fits := by
  rcases reads with ⟨_, covers, _⟩
  exact covers.fits fits

theorem Reads.refl : Reads false stream stream [] :=
  ⟨false, .refl, by simp⟩

theorem Covers.trans_reads (first : Covers inHead stays stream middle content)
    (second : Reads stays middle after more) : Reads inHead stream after (content ++ more) := by
  rcases second with ⟨last, covers, ends⟩
  exact ⟨last, first.trans covers, ends⟩

theorem next_eq_of_pending_eq (ending : after.ending = stream.ending)
    (pending : stream.pending = after.pending) : after.next = stream.next := by
  simp [next, ending, pending]

/-- Where no head of a tag goes on, it does not matter whether one might have. -/
theorem Reads.of_not_isHead (other : stream.next.kind.isHead = false)
    (reads : Reads false stream after content) : Reads true stream after content := by
  rcases reads with ⟨stays, covers, ends⟩
  rcases covers.consumed with ⟨tokens, pending, rfl, rfl⟩
  cases tokens with
  | nil =>
      refine ⟨true, ⟨covers.ending, [], pending, rfl, rfl⟩, fun _ => ?_⟩
      have same : after.next = stream.next := next_eq_of_pending_eq covers.ending pending
      rwa [same]
  | cons token rest =>
      have here : token.kind.isHead = false := by simpa [next, pending] using other
      refine ⟨_, ⟨covers.ending, token :: rest, pending, ?_, rfl⟩, ?_⟩
      · exact TokenKind.contentOf_eq_of_not_isHead here true
      · rwa [List.map_cons, TokenKind.headBehindAll_eq_of_not_isHead here true]

theorem Reads.trans (first : Reads inHead stream middle content)
    (second : Reads false middle after more) : Reads inHead stream after (content ++ more) := by
  rcases first with ⟨stays, covers, ends⟩
  cases stays with
  | false => exact covers.trans_reads second
  | true => exact covers.trans_reads (second.of_not_isHead (ends rfl))

/-- An id or a class that no tag stands in front of is that of a tag `div`. -/
theorem Reads.div {value : String}
    (begins : stream.next.kind = .id value ∨ stream.next.kind = .className value)
    (reads : Reads true stream after content) :
    Reads false stream after (.tag "div" :: content) := by
  rcases reads with ⟨stays, covers, ends⟩
  rcases covers.consumed with ⟨tokens, pending, rfl, rfl⟩
  cases tokens with
  | nil =>
      have same : after.next = stream.next := next_eq_of_pending_eq covers.ending pending
      have other := ends rfl
      rw [same] at other
      rcases begins with kind | kind <;> simp [kind, TokenKind.isHead] at other
  | cons token rest =>
      have here : stream.next = token := by simp [next, pending]
      rw [here] at begins
      refine ⟨_, ⟨covers.ending, token :: rest, pending, ?_, rfl⟩, ?_⟩
      · rcases begins with kind | kind <;>
          simp [kind, TokenKind.contentOf, TokenKind.content, TokenKind.headBehind]
      · intro goes
        apply ends
        rcases begins with kind | kind <;>
          simpa [kind, TokenKind.headBehindAll, TokenKind.headBehind] using goes

/-- Behind a dot nothing stands that its tag would not keep. -/
theorem Fits.isContentOfTag_eq_false (fits : stream.Fits) (dot : stream.next.kind = .dot) :
    stream.tail.next.kind.isContentOfTag = false := by
  have dots := fits.dots
  cases pending : stream.pending with
  | nil =>
      rw [next, pending, List.headD_nil, fits.ending] at dot
      cases dot
  | cons token rest =>
      have isDot : token.kind = .dot := by simpa [next, pending] using dot
      cases rest with
      | nil => simp [tail, next, pending, fits.ending, TokenKind.isContentOfTag]
      | cons second others =>
          simp only [DotsEnd, pending, List.map_cons, List.isChain_cons_cons] at dots
          simpa [tail, next, pending] using dots.1 isDot

/-- The next token is read, unless it is the end of the text. -/
theorem covers_tail (fits : stream.Fits) (more : stream.next.kind ≠ .eos) (inHead : Bool) :
    Covers inHead (stream.next.kind.headBehind inHead) stream stream.tail
      (stream.next.kind.content inHead) := by
  cases pending : stream.pending with
  | nil => exact absurd fits.ending (by simpa [next, pending] using more)
  | cons token rest =>
      have here : stream.next = token := by simp [next, pending]
      refine ⟨rfl, [token], by simp [tail, pending], ?_, ?_⟩
      · simp [TokenKind.contentOf, here]
      · simp [TokenKind.headBehindAll, here]

end TokenStream

open TokenStream

/-- What the computation gives is what the tokens contain that it reads. Where the head of a tag may
go on, the first of these may belong to it. -/
def Parsing.Keeps {α : Type} (inHead : Bool) (stream : TokenStream) (action : Parsing α)
    (holds : α → List TokenKind → Prop) : Prop :=
  stream.Fits → Ensures action stream fun value after =>
    ∃ content, Reads inHead stream after content ∧ holds value content

namespace Parsing.Keeps

variable {α β : Type} {inHead : Bool} {stream : TokenStream} {action : Parsing α}
  {next : α → Parsing β} {first : α → List TokenKind → Prop} {holds : β → List TokenKind → Prop}

theorem throw {stop : ParseStop} : Keeps inHead stream (throw stop) holds :=
  fun _ => .throw

theorem fail {span : Span} {cause : ParseFault} :
    Keeps inHead stream (Parsing.fail span cause) holds :=
  fun _ => .get_bind .throw

theorem pure {value : β} (given : holds value []) : Keeps false stream (pure value) holds :=
  fun _ => .pure ⟨[], .refl, given⟩

theorem mono {holdsMore : β → List TokenKind → Prop} {action : Parsing β}
    (keeps : Keeps inHead stream action holds)
    (values : ∀ value content, holds value content → holdsMore value content) :
    Keeps inHead stream action holdsMore := by
  intro fits
  refine (keeps fits).mono ?_
  rintro value after ⟨content, reads, given⟩
  exact ⟨content, reads, values value content given⟩

theorem bind (before : Keeps inHead stream action first)
    (each : ∀ value content middle, first value content →
      Keeps false middle (next value) fun result more => holds result (content ++ more)) :
    Keeps inHead stream (action >>= next) holds := by
  intro fits
  refine (before fits).bind ?_
  rintro value middle ⟨content, reads, given⟩
  refine (each value content middle given (reads.fits fits)).mono ?_
  rintro result after ⟨more, readsMore, result⟩
  exact ⟨content ++ more, reads.trans readsMore, result⟩

/-- A round of a loop: what it adds stands between what was there before and what later rounds
add. -/
theorem round {added : α → List TokenKind} {result : β → List TokenKind} {before : List TokenKind}
    (one : Keeps inHead stream action fun value content => added value = content)
    (others : ∀ value middle, Keeps false middle (next value) fun found content =>
      result found = before ++ added value ++ content) :
    Keeps inHead stream (action >>= next) fun found content =>
      result found = before ++ content := by
  refine .bind one ?_
  rintro value _ middle rfl
  refine (others value middle).mono ?_
  intro found content kept
  rw [kept, List.append_assoc]

theorem pure_bind {value : α} (given : Keeps inHead stream (next value) holds) :
    Keeps inHead stream (Pure.pure value >>= next) holds :=
  given

theorem peek {next : Token → Parsing β} (each : Keeps inHead stream (next stream.next) holds) :
    Keeps inHead stream (Parsing.peek >>= next) holds :=
  each

theorem place {next : Span → Parsing β} {span : Span}
    (each : ∀ placed, Keeps inHead stream (next placed) holds) :
    Keeps inHead stream (Parsing.place span >>= next) holds :=
  each (stream.place span)

/-- A token that is no part of a head is read. -/
theorem advance {kind : TokenKind} (is : stream.next.kind = kind) {next : Token → Parsing β}
    (more : kind ≠ .eos) (leaves : kind.headBehind false = false)
    (each : Keeps false stream.tail (next stream.next) fun result content =>
      holds result (kind.content false ++ content)) :
    Keeps false stream (Parsing.advance >>= next) holds := by
  intro fits
  have covers := covers_tail fits (is ▸ more) false
  rw [is, leaves] at covers
  refine (each (covers.fits fits)).mono ?_
  rintro result after ⟨content, reads, given⟩
  exact ⟨_, covers.trans_reads reads, given⟩

/-- A token that begins the head of a tag is read. -/
theorem advance_head {kind : TokenKind} (is : stream.next.kind = kind) {next : Token → Parsing β}
    (more : kind ≠ .eos) (goes : kind.headBehind false = true)
    (each : Keeps true stream.tail (next stream.next) fun result content =>
      holds result (kind.content false ++ content)) :
    Keeps false stream (Parsing.advance >>= next) holds := by
  intro fits
  have covers := covers_tail fits (is ▸ more) false
  rw [is, goes] at covers
  refine (each (covers.fits fits)).mono ?_
  rintro result after ⟨content, reads, given⟩
  exact ⟨_, covers.trans_reads reads, given⟩

/-- What begins with no part of a head may stand behind one. -/
theorem of_not_isHead {action : Parsing β} (other : stream.next.kind.isHead = false)
    (keeps : Keeps false stream action holds) : Keeps inHead stream action holds := by
  intro fits
  refine (keeps fits).mono ?_
  rintro value after ⟨content, reads, given⟩
  cases inHead with
  | false => exact ⟨content, reads, given⟩
  | true => exact ⟨content, reads.of_not_isHead other, given⟩

/-- Nothing is read in front of a token that no head goes on with. -/
theorem ends {kind : TokenKind} {value : β} (is : stream.next.kind = kind)
    (other : kind.isHead = false) (given : holds value []) :
    Keeps inHead stream (Pure.pure value) holds :=
  .of_not_isHead (is ▸ other) (.pure given)

/-- What goes on behind tokens without content. -/
theorem ensures_of_covers {stays : Bool} {start : TokenStream} {action : Parsing β}
    (keeps : Keeps stays stream action holds) (covers : Covers inHead stays start stream [])
    (fits : start.Fits) :
    Ensures action stream fun value after =>
      ∃ content, Reads inHead start after content ∧ holds value content := by
  refine (keeps (covers.fits fits)).mono ?_
  rintro value after ⟨content, reads, given⟩
  exact ⟨content, covers.trans_reads reads, given⟩

end Parsing.Keeps

end Offside
