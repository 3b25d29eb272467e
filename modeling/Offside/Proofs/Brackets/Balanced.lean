import Offside.Bracket
import Mathlib.Data.List.Infix

/-!
# Balanced text

What may stand between two brackets: ordinary characters, string literals, comments, and further
brackets with balanced text between them. A text with brackets that are still open is balanced
between any two of them.
-/

namespace Offside.Bracket

/-- The inside of a string literal: a backslash takes the next character, whatever it is, and the
quote does not occur otherwise. -/
inductive LiteralBody (quote : Char) : List Char → Prop where
  | nil : LiteralBody quote []
  | escaped {character : Char} {rest : List Char} (following : LiteralBody quote rest) :
      LiteralBody quote ('\\' :: character :: rest)
  | plain {character : Char} {rest : List Char} (noBackslash : character ≠ '\\')
      (noQuote : character ≠ quote) (following : LiteralBody quote rest) :
      LiteralBody quote (character :: rest)

/-- A comment begins at the start of the text. -/
def BeginsComment (text : List Char) : Prop :=
  ['/', '/'] <+: text ∨ ['/', '*'] <+: text

/-- A text is read from left to right in pieces: ordinary characters, whole literals and comments,
and brackets of one kind with a text of the same form between them. -/
inductive Balanced : List Char → Prop where
  | nil : Balanced []
  | ordinary {character : Char} {rest : List Char} (noQuote : isQuote character = false)
      (noOpening : closing character = none) (noClosing : isClosing character = false)
      (noComment : ¬BeginsComment (character :: rest)) (following : Balanced rest) :
      Balanced (character :: rest)
  | literal {quote : Char} {body rest : List Char} (isQuoted : isQuote quote = true)
      (inside : LiteralBody quote body) (following : Balanced rest) :
      Balanced (quote :: (body ++ quote :: rest))
  | lineComment {body rest : List Char} (oneLine : '\n' ∉ body) (following : Balanced rest) :
      Balanced ('/' :: '/' :: (body ++ '\n' :: rest))
  | blockComment {body rest : List Char} (noEnd : ¬['*', '/'] <:+: body)
      (following : Balanced rest) : Balanced ('/' :: '*' :: (body ++ '*' :: '/' :: rest))
  | nested {opening counterpart : Char} {inside rest : List Char}
      (opens : closing opening = some counterpart) (within : Balanced inside)
      (following : Balanced rest) : Balanced (opening :: (inside ++ counterpart :: rest))

/-- A text in which some brackets are still open. The stack holds their counterparts, innermost
first. -/
inductive Opened : List Char → List Char → Prop where
  | balanced {text : List Char} (whole : Balanced text) : Opened [] text
  | bracket {stack front inside : List Char} {opening counterpart : Char}
      (before : Opened stack front) (opens : closing opening = some counterpart)
      (within : Balanced inside) : Opened (counterpart :: stack) (front ++ opening :: inside)

/-- Reading a text leads from one stack of open brackets to another one. -/
inductive Reaches : List Char → List Char → List Char → Prop where
  | opened {stack opened text : List Char} (pending : Opened opened text) :
      Reaches stack text (opened ++ stack)
  | closing {counterpart : Char} {stack front text after : List Char} (within : Balanced front)
      (following : Reaches stack text after) :
      Reaches (counterpart :: stack) (front ++ counterpart :: text) after

section

variable {character opening counterpart : Char} {stack text front inside rest after : List Char}

theorem BeginsComment.append (begins : BeginsComment text) (others : List Char) :
    BeginsComment (text ++ others) :=
  begins.imp (·.trans (List.prefix_append _ _)) (·.trans (List.prefix_append _ _))

theorem beginsComment_cons_iff :
    BeginsComment (character :: rest) ↔
      character = '/' ∧ (rest.head? = some '/' ∨ rest.head? = some '*') := by
  cases rest <;> simp [BeginsComment, eq_comm, and_or_left]

/-- Neither a quote nor a bracket, and not how a comment begins. -/
def isPlain (character : Char) : Bool :=
  !isQuote character && (closing character).isNone && !isClosing character && character != '/'

theorem Balanced.plain (following : Balanced rest) (front : List Char)
    (plain : ∀ character ∈ front, isPlain character = true) : Balanced (front ++ rest) := by
  induction front with
  | nil => exact following
  | cons character others ih =>
      have here := plain character (by simp)
      simp only [isPlain, Bool.and_eq_true, Bool.not_eq_true', Option.isNone_iff_eq_none,
        bne_iff_ne] at here
      rcases here with ⟨⟨⟨noQuote, noOpening⟩, noClosing⟩, noSlash⟩
      refine .ordinary noQuote noOpening noClosing ?_
        (ih fun other mem => plain other (List.mem_cons_of_mem character mem))
      rw [beginsComment_cons_iff]
      exact fun begins => noSlash begins.1

theorem Reaches.opened_of_nil (reaches : Reaches [] text after) : Opened after text := by
  cases reaches with
  | opened pending => simpa using pending

/-! ### A piece in front of a text -/

section

variable (piece : List Char) (fits : List Char → Prop)
  (fits_of_append : ∀ front others, fits (front ++ others) → fits front)
  (absorbs : ∀ rest, fits rest → Balanced rest → Balanced (piece ++ rest))

include fits_of_append absorbs

/-- What may stand in front of balanced text may also stand in front of text with open brackets. -/
theorem Opened.absorb (opened : Opened stack text) (here : fits text) :
    Opened stack (piece ++ text) := by
  induction opened with
  | balanced whole => exact .balanced (absorbs _ here whole)
  | bracket before opens within ih =>
      rw [← List.append_assoc]
      exact .bracket (ih (fits_of_append _ _ here)) opens within

theorem Reaches.absorb (reaches : Reaches stack text after) (here : fits text) :
    Reaches stack (piece ++ text) after := by
  cases reaches with
  | opened pending => exact .opened (pending.absorb piece fits fits_of_append absorbs here)
  | closing within following =>
      rw [← List.append_assoc]
      exact .closing (absorbs _ (fits_of_append _ _ here) within) following

end

namespace Reaches

theorem ordinary (reaches : Reaches stack text after) (noQuote : isQuote character = false)
    (noOpening : Bracket.closing character = none) (noClosing : isClosing character = false)
    (noComment : ¬BeginsComment (character :: text)) :
    Reaches stack (character :: text) after := by
  apply Reaches.absorb [character] (fun rest => ¬BeginsComment (character :: rest)) _ _ reaches
    noComment
  · intro front others here begins
    exact here (begins.append others)
  · intro rest here balanced
    exact .ordinary noQuote noOpening noClosing here balanced

theorem piece (reaches : Reaches stack text after) (piece : List Char)
    (absorbs : ∀ rest, Balanced rest → Balanced (piece ++ rest)) :
    Reaches stack (piece ++ text) after :=
  reaches.absorb piece (fun _ => True) (fun _ _ _ => trivial)
    (fun rest _ balanced => absorbs rest balanced) trivial

theorem literal {quote : Char} {body : List Char} (reaches : Reaches stack text after)
    (isQuoted : isQuote quote = true) (inLiteral : LiteralBody quote body) :
    Reaches stack (quote :: (body ++ quote :: text)) after := by
  have whole := reaches.piece (quote :: (body ++ [quote])) (by
    intro rest balanced
    simpa using Balanced.literal isQuoted inLiteral balanced)
  simpa using whole

theorem lineComment {body : List Char} (reaches : Reaches stack text after)
    (oneLine : '\n' ∉ body) : Reaches stack ('/' :: '/' :: (body ++ '\n' :: text)) after := by
  have whole := reaches.piece ('/' :: '/' :: (body ++ ['\n'])) (by
    intro rest balanced
    simpa using Balanced.lineComment oneLine balanced)
  simpa using whole

theorem blockComment {body : List Char} (reaches : Reaches stack text after)
    (noEnd : ¬['*', '/'] <:+: body) :
    Reaches stack ('/' :: '*' :: (body ++ '*' :: '/' :: text)) after := by
  have whole := reaches.piece ('/' :: '*' :: (body ++ ['*', '/'])) (by
    intro rest balanced
    simpa using Balanced.blockComment noEnd balanced)
  simpa using whole

theorem nested (reaches : Reaches stack text after)
    (opens : Bracket.closing opening = some counterpart) (within : Balanced inside) :
    Reaches stack (opening :: (inside ++ counterpart :: text)) after := by
  have whole := reaches.piece (opening :: (inside ++ [counterpart])) (by
    intro rest balanced
    simpa using Balanced.nested opens within balanced)
  simpa using whole

end Reaches

/-! ### A bracket in front of a text -/

theorem Opened.enclose (opened : Opened stack text) (opens : closing opening = some counterpart) :
    Opened (stack ++ [counterpart]) (opening :: text) := by
  induction opened with
  | balanced whole => exact .bracket (.balanced .nil) opens whole
  | bracket before opensInside within ih => exact .bracket ih opensInside within

/-- A bracket at the start of a text is closed in the text, or it is still open behind it. -/
theorem Reaches.bracket (reaches : Reaches (counterpart :: stack) text after)
    (opens : Bracket.closing opening = some counterpart) :
    Reaches stack (opening :: text) after := by
  cases reaches with
  | opened pending =>
      rw [List.append_cons]
      exact .opened (pending.enclose opens)
  | closing within following => exact following.nested opens within

end

end Offside.Bracket
