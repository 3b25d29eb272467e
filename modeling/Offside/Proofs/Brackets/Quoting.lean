import Offside.Html.Argument
import Offside.Proofs.Brackets.Balanced
import Offside.Proofs.Inline.Marker
import Offside.Token.Attribute

/-!
# Quoting

Any text can be written as a string literal, with a backslash in front of each backslash and each
quote in it. The literal is balanced, and whatever reads literals gets the text back.
-/

namespace Offside

open Text

namespace Text

/-- A text with a backslash in front of each backslash and each quote. -/
def escapeQuotes (quote : Char) : List Char → List Char
  | [] => []
  | character :: rest =>
      if character = '\\' ∨ character = quote then
        '\\' :: character :: escapeQuotes quote rest
      else
        character :: escapeQuotes quote rest

/-- A text as a literal. -/
def quoteText (quote : Char) (value : List Char) : List Char :=
  quote :: (escapeQuotes quote value ++ [quote])

section

variable {quote : Char} {value rest : List Char}

theorem quoteText_append :
    quoteText quote value ++ rest = quote :: (escapeQuotes quote value ++ quote :: rest) := by
  simp [quoteText]

theorem mem_of_mem_escapeQuotes {character : Char} (mem : character ∈ escapeQuotes quote value) :
    character = '\\' ∨ character ∈ value := by
  fun_induction escapeQuotes quote value with
  | case1 => simp at mem
  | case2 | case3 =>
      simp only [List.mem_cons] at mem ⊢
      grind

theorem mem_of_mem_quoteText {character : Char} (mem : character ∈ quoteText quote value) :
    character = quote ∨ character = '\\' ∨ character ∈ value := by
  rcases List.mem_cons.mp mem with same | mem
  · exact .inl same
  · rcases List.mem_append.mp mem with mem | mem
    · exact .inr (mem_of_mem_escapeQuotes mem)
    · exact .inl (List.mem_singleton.mp mem)

theorem literalBody_escapeQuotes : Bracket.LiteralBody quote (escapeQuotes quote value) := by
  fun_induction escapeQuotes quote value with
  | case1 => exact .nil
  | case2 _ _ _ ih => exact ih.escaped
  | case3 character rest other ih =>
      rw [not_or] at other
      exact ih.plain other.1 other.2

end

/-! ### Reading a literal -/

section

variable {quote : Char} (isMark : isQuoteMark quote = true)

include isMark

theorem isQuote_of_isQuoteMark : Bracket.isQuote quote = true := by
  unfold isQuoteMark at isMark
  simp [Bracket.isQuote, isMark]

theorem ne_backslash_of_isQuoteMark : quote ≠ '\\' := by
  rintro rfl
  simp [isQuoteMark] at isMark

theorem unescape_eq_self {character : Char} (special : character = '\\' ∨ character = quote) :
    unescape character = character := by
  rcases special with rfl | rfl
  · rfl
  · unfold unescape
    split <;> first | rfl | simp [isQuoteMark] at isMark

theorem literalBody?_escapeQuotes (value : List Char) :
    literalBody? quote (escapeQuotes quote value ++ [quote]) = some value := by
  fun_induction escapeQuotes quote value with
  | case1 => simp [literalBody?]
  | case2 character rest special ih =>
      simp [literalBody?, ih, unescape_eq_self isMark special]
  | case3 character rest other ih =>
      rw [not_or] at other
      rw [List.cons_append, literalBody?, if_neg other.2, ih]
      · rfl
      · simp [other.1]

theorem literal?_quoteText (value : List Char) : literal? (quoteText quote value) = some value := by
  simp [quoteText, literal?, isMark, literalBody?_escapeQuotes isMark]

theorem exists_readQuoted_eq (value rest : List Char) (position : Position) :
    ∃ stop, readQuoted quote (escapeQuotes quote value ++ quote :: rest) position =
      (value, ⟨rest, stop⟩) := by
  have noBackslash := ne_backslash_of_isQuoteMark isMark
  fun_induction escapeQuotes quote value generalizing position with
  | case1 => exact ⟨position.right 1, by simp [readQuoted, noBackslash]⟩
  | case2 character others special ih =>
      rcases ih (position.right 2) with ⟨stop, read⟩
      exact ⟨stop, by simp [readQuoted, read, unescape_eq_self isMark special]⟩
  | case3 character others other ih =>
      rw [not_or] at other
      rcases ih (position.after character) with ⟨stop, read⟩
      refine ⟨stop, ?_⟩
      rw [List.cons_append, readQuoted, if_neg other.2, read]
      simp [other.1]

end

end Text

namespace Bracket

theorem Balanced.quoteText {rest : List Char} (following : Balanced rest) {quote : Char}
    (isMark : isQuoteMark quote = true) (value : List Char) :
    Balanced (Text.quoteText quote value ++ rest) := by
  rw [quoteText_append]
  exact .literal (isQuote_of_isQuoteMark isMark) literalBody_escapeQuotes following

end Bracket

end Offside
