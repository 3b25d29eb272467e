/-!
# Escaping

The four characters that have a meaning in the text and the attributes of a page are written as
entities.
-/

namespace Offside.Html

/-- A character as it is written in a page. -/
def escapeCharacter (character : Char) : List Char :=
  if character = '&' then "&amp;".toList
  else if character = '<' then "&lt;".toList
  else if character = '>' then "&gt;".toList
  else if character = '\x22' then "&quot;".toList
  else [character]

/-- A text as it is written in a page. -/
def escape (text : String) : String :=
  String.ofList (text.toList.flatMap escapeCharacter)

/-- A text that may be written as it is. -/
def written (escaped : Bool) (text : String) : String :=
  if escaped then escape text else text

end Offside.Html
