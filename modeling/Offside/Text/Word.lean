/-!
# Words

Names in a template are written with ASCII letters, digits and underscores; most of them may also
hold dashes. Keywords are recognised at the start of the unread text.
-/

namespace Offside.Text

/-- An ASCII letter, an ASCII digit or an underscore. -/
def isWord (character : Char) : Bool :=
  character.isAlphanum || character == '_'

/-- A word character or a dash. -/
def isWordOrDash (character : Char) : Bool :=
  isWord character || character == '-'

/-- The text after `front`, if it starts with it. -/
def after? : (front text : List Char) → Option (List Char)
  | [], text => some text
  | _ :: _, [] => none
  | expected :: front, found :: text => if expected = found then after? front text else none

/-- The text after a keyword. -/
def afterKeyword? (keyword : String) (text : List Char) : Option (List Char) :=
  after? keyword.toList text

/-- Whether the text starts with the keyword, and no word character follows it. -/
def atWordBoundary (keyword : String) (text : List Char) : Bool :=
  match afterKeyword? keyword text with
  | none => false
  | some [] => true
  | some (next :: _) => !isWord next

/-- Split at the last occurrence of a character. -/
def splitLast? (separator : Char) : List Char → Option (List Char × List Char)
  | [] => none
  | character :: rest =>
      match splitLast? separator rest with
      | some (front, back) => some (character :: front, back)
      | none => if character = separator then some ([], rest) else none

theorem ne_of_isWord {character other : Char} (word : isWord character = true)
    (noWord : isWord other = false) : character ≠ other := by
  rintro rfl
  simp [word] at noWord

theorem after?_eq_some_iff {front text rest : List Char} :
    after? front text = some rest ↔ text = front ++ rest := by
  induction front generalizing text with
  | nil => simp [after?, eq_comm]
  | cons expected front ih =>
    cases text with
    | nil => simp [after?]
    | cons found text =>
      simp only [after?, List.cons_append, List.cons.injEq]
      split
      · next same => simp [ih, same]
      · next different => simp [eq_comm, different]

end Offside.Text
