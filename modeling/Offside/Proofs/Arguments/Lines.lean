import Offside.Proofs.Conservation.Reading
import Offside.Proofs.Nesting.Nested

/-!
# In front of a line

The tokens in front of a line that stands outside of all levels of indentation close every level
that they open, and the last of them is for the layout. So inside of a line the rest of the line is
still to be read, and inside of a level the token that closes it.
-/

namespace Offside

/-! ### Tokens in front of a line -/

namespace TokenKind

/-- Whether a token declares or calls a mixin. -/
def isMixin : TokenKind → Bool
  | mixin .. | call .. => true
  | _ => false

/-- Whether a token stands for the layout: for a new line or for a level. -/
def isLayout : TokenKind → Bool
  | newline | indent _ | outdent => true
  | _ => false

end TokenKind

/-- Some tokens close as many levels as are open in front of them, and all that they open. -/
inductive LevelsClose : (depth : Nat) → List TokenKind → Prop where
  | nil : LevelsClose 0 []
  | indent {depth width : Nat} {rest : List TokenKind} (closes : LevelsClose (depth + 1) rest) :
      LevelsClose depth (.indent width :: rest)
  | outdent {depth : Nat} {rest : List TokenKind} (closes : LevelsClose depth rest) :
      LevelsClose (depth + 1) (.outdent :: rest)
  | other {depth : Nat} {kind : TokenKind} {rest : List TokenKind}
      (noIndent : ∀ width, kind ≠ .indent width) (noOutdent : kind ≠ .outdent)
      (closes : LevelsClose depth rest) : LevelsClose depth (kind :: rest)

namespace LevelsClose

variable {depth : Nat} {kind : TokenKind} {front rest kinds : List TokenKind}

theorem of_newline (closes : LevelsClose depth (.newline :: rest)) : LevelsClose depth rest := by
  cases closes with
  | other _ _ closes => exact closes

theorem of_indent {width : Nat} (closes : LevelsClose depth (.indent width :: rest)) :
    LevelsClose (depth + 1) rest := by
  cases closes with
  | indent closes => exact closes
  | other noIndent _ _ => exact absurd rfl (noIndent width)

theorem of_outdent (closes : LevelsClose (depth + 1) (.outdent :: rest)) :
    LevelsClose depth rest := by
  cases closes with
  | outdent closes => exact closes
  | other _ noOutdent _ => exact absurd rfl noOutdent

theorem of_inline (closes : LevelsClose depth (kind :: rest)) (inline : kind.isLayout = false) :
    LevelsClose depth rest := by
  cases closes with
  | indent | outdent => cases inline
  | other _ _ closes => exact closes

/-- Behind tokens that close everything come such that do so by themselves. -/
theorem of_append (closes : LevelsClose depth front)
    (all : LevelsClose depth (front ++ rest)) : LevelsClose 0 rest := by
  induction closes with
  | nil => exact all
  | indent _ ih => exact ih all.of_indent
  | outdent _ ih => exact ih all.of_outdent
  | other noIndent noOutdent _ ih =>
      cases all with
      | indent => exact absurd rfl (noIndent _)
      | outdent => exact absurd rfl noOutdent
      | other _ _ all => exact ih all

theorem append_nested {place : Surrounding} (nested : Nested place kinds)
    (closes : LevelsClose depth rest) : LevelsClose depth (kinds ++ rest) := by
  induction nested generalizing depth rest with
  | nil => exact closes
  | single allowed _ ih =>
      have single := Nested.isSingle_of_allows allowed
      refine .other ?_ ?_ (ih closes)
      · rintro width rfl
        cases single
      · rintro rfl
        cases single
  | @enclosed _ inside opening closing _ _ _ opens closing_eq _ _ ihBody ihRest =>
      rw [List.append_assoc, List.cons_append]
      cases inside with
      | lines =>
          obtain ⟨width, rfl⟩ : ∃ width, opening = .indent width := by
            cases opening <;> simp [TokenKind.opens?] at opens ⊢
          obtain rfl : closing = .outdent := by
            cases closing <;> simp [TokenKind.closes?] at closing_eq ⊢
          exact .indent (ihBody (.outdent (ihRest closes)))
      | attributes | interpolation | textBlock =>
          refine .other ?_ ?_ (ihBody (.other ?_ ?_ (ihRest closes)))
          · rintro width rfl
            cases opens
          · rintro rfl
            cases opens
          · rintro width rfl
            cases closing_eq
          · rintro rfl
            cases closing_eq

theorem of_nested {place : Surrounding} (nested : Nested place kinds) : LevelsClose 0 kinds := by
  have closes := append_nested nested .nil
  rwa [List.append_nil] at closes

end LevelsClose

/-- Some tokens stand in front of a line: they close the levels, the last one is for the layout, and
none is the end of the text. -/
structure EndLines (depth : Nat) (front : List Token) : Prop where
  closes : LevelsClose depth (front.map Token.kind)
  last : ∀ token ∈ front.getLast?, token.kind = .newline ∨ token.kind = .outdent
  goesOn : ∀ token ∈ front, token.kind ≠ .eos

namespace EndLines

variable {depth : Nat} {token : Token} {front rest : List Token}

/-- What is left of the tokens when the first is read. -/
theorem tail (ends : EndLines depth (token :: rest)) {left : Nat}
    (closes : LevelsClose left (rest.map Token.kind)) : EndLines left rest := by
  refine ⟨closes, ?_, (List.forall_mem_cons.mp ends.goesOn).2⟩
  cases rest with
  | nil => simp
  | cons other rest => simpa using ends.last

theorem inline (ends : EndLines depth (token :: rest)) (inline : token.kind.isLayout = false) :
    rest ≠ [] ∧ EndLines depth rest := by
  refine ⟨?_, ends.tail (ends.closes.of_inline inline)⟩
  rintro rfl
  rcases ends.last token rfl with kind | kind <;> simp [kind, TokenKind.isLayout] at inline

theorem newline (ends : EndLines depth (token :: rest)) (kind : token.kind = .newline) :
    EndLines depth rest := by
  refine ends.tail (.of_newline ?_)
  simpa [kind] using ends.closes

theorem indent (ends : EndLines depth (token :: rest)) {width : Nat}
    (kind : token.kind = .indent width) : EndLines (depth + 1) rest := by
  have closes : LevelsClose depth (.indent width :: rest.map Token.kind) := by
    simpa [kind] using ends.closes
  exact ends.tail closes.of_indent

theorem outdent (ends : EndLines (depth + 1) (token :: rest)) (kind : token.kind = .outdent) :
    EndLines depth rest := by
  refine ends.tail (.of_outdent ?_)
  simpa [kind] using ends.closes

/-- Behind tokens that stand in front of a line, others do so by themselves. -/
theorem of_append (first : EndLines depth front) (all : EndLines depth (front ++ rest)) :
    EndLines 0 rest := by
  refine ⟨first.closes.of_append ?_, fun token isLast => ?_, fun token member => ?_⟩
  · simpa using all.closes
  · apply all.last
    rw [List.getLast?_append]
    simp [Option.mem_def.mp isLast]
  · exact all.goesOn token (List.mem_append_right front member)

end EndLines

/-! ### Streams in front of a line -/

/-- A line of a template that begins with the declaration or a call of a mixin. -/
structure MixinLine where
  file : Option String
  first : Token
  /-- All tokens that come later. -/
  others : List Token
  isMixin : first.kind.isMixin = true

namespace TokenStream

/-- Of the tokens that are still to be read some stand in front of the line. -/
structure Before (line : MixinLine) (depth : Nat) (stream : TokenStream) : Prop where
  file : stream.file = line.file
  pending : ∃ front, stream.pending = front ++ line.first :: line.others ∧ EndLines depth front

/-- Of the tokens that are still to be read at least one stands in front of the line. -/
structure Within (line : MixinLine) (depth : Nat) (stream : TokenStream) : Prop where
  file : stream.file = line.file
  pending : ∃ rest, stream.pending = stream.next :: (rest ++ line.first :: line.others) ∧
    EndLines depth (stream.next :: rest)

variable {line : MixinLine} {depth : Nat} {stream : TokenStream} {kind : TokenKind}

theorem Within.before (within : stream.Within line depth) : stream.Before line depth := by
  rcases within.pending with ⟨rest, pending, ends⟩
  exact ⟨within.file, stream.next :: rest, pending, ends⟩

namespace Before

theorem within_or_here (before : stream.Before line depth) :
    stream.Within line depth ∨ depth = 0 ∧ stream.pending = line.first :: line.others := by
  rcases before.pending with ⟨_ | ⟨token, rest⟩, pending, ends⟩
  · have closed : depth = 0 := by
      cases ends.closes
      rfl
    exact .inr ⟨closed, pending⟩
  · have next : stream.next = token := by simp [TokenStream.next, pending]
    exact .inl ⟨before.file, rest, next ▸ pending, next ▸ ends⟩

/-- The next token does not begin the line, so there is one in front. -/
theorem within (before : stream.Before line depth) (is : stream.next.kind = kind)
    (other : kind.isMixin = false) : stream.Within line depth := by
  refine before.within_or_here.resolve_right fun ⟨_, pending⟩ => ?_
  have next : stream.next = line.first := by simp [TokenStream.next, pending]
  rw [← is, next, line.isMixin] at other
  cases other

/-- Inside of a level the token that closes it is still to be read. -/
theorem within_level (before : stream.Before line (depth + 1)) :
    stream.Within line (depth + 1) :=
  before.within_or_here.resolve_right fun ⟨closed, _⟩ => Nat.succ_ne_zero depth closed

end Before

namespace Within

theorem inline (within : stream.Within line depth) (is : stream.next.kind = kind)
    (inline : kind.isLayout = false) : stream.tail.Within line depth := by
  rcases within.pending with ⟨rest, pending, ends⟩
  rcases ends.inline (is ▸ inline) with ⟨more, ends⟩
  rcases List.exists_cons_of_ne_nil more with ⟨token, rest, rfl⟩
  have after : stream.tail.pending = token :: (rest ++ line.first :: line.others) := by
    simp [TokenStream.tail, pending]
  have next : stream.tail.next = token := by simp [TokenStream.next, after]
  exact ⟨within.file, rest, next ▸ after, next ▸ ends⟩

theorem newline (within : stream.Within line depth) (is : stream.next.kind = .newline) :
    stream.tail.Before line depth := by
  rcases within.pending with ⟨rest, pending, ends⟩
  exact ⟨within.file, rest, by simp [TokenStream.tail, pending], ends.newline is⟩

theorem indent (within : stream.Within line depth) {width : Nat}
    (is : stream.next.kind = .indent width) : stream.tail.Before line (depth + 1) := by
  rcases within.pending with ⟨rest, pending, ends⟩
  exact ⟨within.file, rest, by simp [TokenStream.tail, pending], ends.indent is⟩

theorem outdent (within : stream.Within line (depth + 1)) (is : stream.next.kind = .outdent) :
    stream.tail.Before line depth := by
  rcases within.pending with ⟨rest, pending, ends⟩
  exact ⟨within.file, rest, by simp [TokenStream.tail, pending], ends.outdent is⟩

theorem next_ne_eos (within : stream.Within line depth) : stream.next.kind ≠ .eos := by
  rcases within.pending with ⟨_, _, ends⟩
  exact ends.goesOn _ List.mem_cons_self

end Within

/-- A token in a line is read. -/
theorem Before.inline (before : stream.Before line depth) (is : stream.next.kind = kind)
    (other : kind.isMixin = false) (inline : kind.isLayout = false) :
    stream.tail.Within line depth :=
  (before.within is other).inline is inline

end TokenStream

end Offside
