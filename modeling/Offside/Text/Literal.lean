/-!
# String literals

A literal stands between two single or two double quotes. A backslash takes the next character as
it is, except that `\n` and `\t` stand for a newline and a tab.
-/

namespace Offside.Text

/-- A single or a double quote. -/
def isQuoteMark (character : Char) : Bool :=
  character == '\x27' || character == '\x22'

/-- The character that a backslash stands for together with the next one. -/
def unescape : Char → Char
  | 'n' => '\n'
  | 't' => '\t'
  | other => other

/-- The value of a literal whose opening quote has been read; the closing quote must be the last
character. -/
def literalBody? (quote : Char) : List Char → Option (List Char)
  | [] => none
  | '\\' :: escaped :: rest => (literalBody? quote rest).map (unescape escaped :: ·)
  | character :: rest =>
      if character = quote then
        if rest.isEmpty then some [] else none
      else
        (literalBody? quote rest).map (character :: ·)

/-- The value of a text that is a literal from its first to its last character. -/
def literal? : List Char → Option (List Char)
  | [] => none
  | first :: rest => if isQuoteMark first then literalBody? first rest else none

end Offside.Text
