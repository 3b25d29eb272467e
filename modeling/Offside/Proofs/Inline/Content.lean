import Offside.Html.Argument
import Offside.Proofs.Layout.Element
import Offside.Token.Marker

/-!
# Content of a line

Behind the name of an element there may be running text in which variables and other elements stand,
and these hold running text again. Where a text would begin an interpolation, a backslash in the
template makes it literal.
-/

namespace Offside

open Text

/-- A text on one line, which may hold whatever else. -/
structure InlineText where
  value : String
  nonempty : value ≠ ""
  oneLine : '\n' ∉ value.toList
  noReturn : '\r' ∉ value.toList

/-- The name of a variable. -/
structure VariableName where
  value : String
  valid : Html.isName value.toList = true

/-- A piece of running text: a text, a variable, which may be escaped for the page, or an element
with its content. -/
inductive Inline where
  | text (value : InlineText)
  | code (name : VariableName) (escaped : Bool)
  | tag (name : ElementName) (content : List Inline)

/-- A text as it is written in a template: a backslash stands in front of what would begin an
interpolation. -/
def escapeMarkers : List Char → List Char
  | '#' :: '[' :: rest => '\\' :: '#' :: '[' :: escapeMarkers rest
  | '#' :: '\x7b' :: rest => '\\' :: '#' :: '\x7b' :: escapeMarkers rest
  | '!' :: '\x7b' :: rest => '\\' :: '!' :: '\x7b' :: escapeMarkers rest
  | character :: rest => character :: escapeMarkers rest
  | [] => []

namespace Inline

mutual

/-- A piece as it is written in a template. -/
def print : Inline → List Char
  | text value => escapeMarkers value.value.toList
  | code name escaped =>
      (if escaped then '#' else '!') :: '\x7b' :: (name.value.toList ++ ['\x7d'])
  | tag name content =>
      '#' :: '[' :: (name.value.toList ++
        (if content.isEmpty then [] else ' ' :: printAll content) ++ [']'])

/-- Some pieces as they are written in a template. -/
def printAll : List Inline → List Char
  | [] => []
  | piece :: rest => piece.print ++ printAll rest

end

section

variable (globals : List (String × String))

mutual

/-- A piece as it is written in a page. -/
def html : Inline → String
  | text value => value.value
  | code name escaped => Html.written escaped ((globals.lookup name.value).getD "")
  | tag name content => "<" ++ name.value ++ ">" ++ htmlAll content ++ "</" ++ name.value ++ ">"

/-- Some pieces as they are written in a page. -/
def htmlAll : List Inline → String
  | [] => ""
  | piece :: rest => piece.html ++ htmlAll rest

end

/-- Some pieces can be told apart when they are printed one after the other, and all variables are
bound. The bracket that closes an element does not stand in its texts. -/
inductive Fits : (inTag : Bool) → List Inline → Prop where
  | nil {inTag : Bool} : Fits inTag []
  | text {inTag : Bool} {value : InlineText} {rest : List Inline}
      (noBracket : inTag = true → ']' ∉ value.value.toList)
      (separate : ∀ next ∈ rest.head?, (∀ other, next ≠ .text other) ∧
        value.value.toList.getLast? ≠ some '\\')
      (following : Fits inTag rest) : Fits inTag (.text value :: rest)
  | code {inTag escaped : Bool} {name : VariableName} {rest : List Inline}
      (bound : ∃ value, globals.lookup name.value = some value) (following : Fits inTag rest) :
      Fits inTag (.code name escaped :: rest)
  | tag {inTag : Bool} {name : ElementName} {content rest : List Inline}
      (inside : Fits true content) (following : Fits inTag rest) :
      Fits inTag (.tag name content :: rest)

end

end Inline

/-! ### The characters of a print -/

namespace VariableName

variable (name : VariableName)

/-- No sign but an underscore, a dollar sign and a dash stands in a name. -/
theorem ne_of_mem {character other : Char} (mem : character ∈ name.value.toList)
    (noLetter : isAlphanumeric other = false) (noSign : other ∉ ['_', '$', '-']) :
    character ≠ other := by
  rintro rfl
  have valid := name.valid
  have noAlphabetic : isAlphabetic character = false := by
    unfold isAlphanumeric at noLetter
    exact (Bool.or_eq_false_iff.mp noLetter).1
  cases chars : name.value.toList with
  | nil => simp [chars] at mem
  | cons first rest =>
      simp only [chars, Html.isName, Bool.and_eq_true, List.all_eq_true] at valid
      rw [chars] at mem
      simp only [List.mem_cons, List.not_mem_nil, or_false, not_or] at noSign
      rcases List.mem_cons.mp mem with rfl | mem
      · have opening := valid.1
        simp [noAlphabetic, noSign] at opening
      · have other := valid.2 character mem
        simp [noLetter, noSign] at other

end VariableName

theorem mem_of_mem_escapeMarkers {character : Char} {text : List Char}
    (mem : character ∈ escapeMarkers text) : character = '\\' ∨ character ∈ text := by
  fun_induction escapeMarkers text with
  | case1 | case2 | case3 | case4 =>
      simp only [List.mem_cons] at mem ⊢
      grind
  | case5 => simp at mem

namespace Inline

variable {globals : List (String × String)} {inTag : Bool} {pieces : List Inline}

theorem printAll_text (value : InlineText) (rest : List Inline) :
    printAll (.text value :: rest) = escapeMarkers value.value.toList ++ printAll rest := by
  simp [printAll, print]

theorem printAll_code (name : VariableName) (escaped : Bool) (rest : List Inline) :
    printAll (.code name escaped :: rest) = (if escaped then '#' else '!') :: '\x7b' ::
      (name.value.toList ++ '\x7d' :: printAll rest) := by
  simp [printAll, print]

/-- What stands between the name of a tag and the bracket that closes it. -/
def printInside (content : List Inline) : List Char :=
  if content.isEmpty then [] else ' ' :: printAll content

theorem printAll_tag (name : ElementName) (content rest : List Inline) :
    printAll (.tag name content :: rest) =
      '#' :: '[' :: (name.value.toList ++ (printInside content ++ ']' :: printAll rest)) := by
  simp [printAll, print, printInside]

theorem length_printAll_le (content : List Inline) :
    (printAll content).length ≤ (printInside content).length := by
  cases content <;> simp [printAll, printInside]

theorem printAll_ne_nil (nonempty : pieces ≠ []) : printAll pieces ≠ [] := by
  cases pieces with
  | nil => exact absurd rfl nonempty
  | cons piece rest =>
      cases piece with
      | text value =>
          have someText : escapeMarkers value.value.toList ≠ [] := by
            intro empty
            unfold escapeMarkers at empty
            split at empty
            · simp at empty
            · simp at empty
            · simp at empty
            · simp at empty
            · next none => exact value.nonempty (String.toList_eq_nil_iff.mp none)
          simp [printAll_text, someText]
      | code name escaped => simp [printAll_code]
      | tag name content => simp [printAll_tag]

/-- A print is on one line, and its newlines need no normalising. -/
theorem Fits.notMem_printAll (fits : Fits globals inTag pieces) {character : Char}
    (control : character = '\n' ∨ character = '\r') : character ∉ printAll pieces := by
  have noLetter : isAlphanumeric character = false := by
    rcases control with rfl | rfl <;> decide +kernel
  have noWord : isWord character = false := by
    rcases control with rfl | rfl <;> decide
  have noSign : character ∉ ['_', '$', '-', '\\', '#', '!', '[', ']', '\x7b', '\x7d', ' '] := by
    rcases control with rfl | rfl <;> decide
  simp only [List.mem_cons, List.not_mem_nil, or_false, not_or] at noSign
  rcases noSign with ⟨underscore, dollar, dash, backslash, hash, bang, bracket, closing, brace,
    closingBrace, space⟩
  induction fits with
  | nil => simp [printAll]
  | @text _ value rest _ _ _ ih =>
      have noText : character ∉ value.value.toList := by
        rcases control with rfl | rfl
        · exact value.oneLine
        · exact value.noReturn
      rw [printAll_text, List.mem_append, not_or]
      refine ⟨fun mem => ?_, ih⟩
      rcases mem_of_mem_escapeMarkers mem with same | mem
      · exact backslash same
      · exact noText mem
  | @code _ escaped name rest _ _ ih =>
      have noName : character ∉ name.value.toList := by
        intro mem
        exact name.ne_of_mem mem noLetter (by simp [underscore, dollar, dash]) rfl
      cases escaped <;> simp [printAll_code, hash, bang, brace, closingBrace, noName, ih]
  | @tag _ name content rest _ _ ihInside ih =>
      have noName : character ∉ name.value.toList := by
        intro mem
        exact ne_of_isWord (name.isWord_of_mem mem) noWord rfl
      cases content <;>
        simp [printAll_tag, printInside, hash, bracket, closing, space, noName, ih, ihInside]

end Inline

end Offside
