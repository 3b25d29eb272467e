import Offside.Text.Blank
import Offside.Text.Letter
import Offside.Text.Line
import Offside.Text.Literal

/-!
# Arguments and parameters

The arguments of a call and the parameters of a mixin are lists with commas in between; a comma in
a string literal does not count. An argument is a literal, a number or the name of a variable.
-/

namespace Offside.Html

open Text

/-- Cut a text at the commas outside of literals. -/
def cutAtCommas : (quote : Option Char) → List Char → List (List Char)
  | _, [] => [[]]
  | some quote, '\\' :: escaped :: rest =>
      consFirst '\\' (consFirst escaped (cutAtCommas (some quote) rest))
  | some quote, character :: rest =>
      consFirst character (cutAtCommas (if character = quote then none else some quote) rest)
  | none, character :: rest =>
      if character = ',' then
        [] :: cutAtCommas none rest
      else
        consFirst character
          (cutAtCommas (if isQuoteMark character then some character else none) rest)

/-- The items of a list, without the white space around them. A blank list has no items. -/
def listItems (text : List Char) : List (List Char) :=
  if isBlank text then [] else (cutAtCommas none text).map trim

/-- A decimal number: perhaps a minus sign, then digits with at most one point among them. -/
def isNumber (text : List Char) : Bool :=
  let digits :=
    match text with
    | '-' :: rest => rest
    | _ => text
  digits.all (fun character => character.isDigit || character == '.') &&
    digits.any Char.isDigit && digits.count '.' ≤ 1

/-- The name of a variable: a letter, an underscore or a dollar sign, and then also digits and
dashes. -/
def isName : List Char → Bool
  | [] => false
  | first :: rest =>
      (isAlphabetic first || first == '_' || first == '$') &&
        rest.all fun character =>
          isAlphanumeric character || character == '_' || character == '$' || character == '-'

end Offside.Html
