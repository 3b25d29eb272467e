/-!
# White space

Three notions of blank text are in use. Indentation knows spaces and tabs only; attribute lists
also skip newlines; and names, paths and comments are trimmed of every character that has the
property `White_Space`.
-/

namespace Offside.Text

/-- The characters that have the property `White_Space`. -/
def isWhitespace (character : Char) : Bool :=
  let code := character.toNat
  (9 ≤ code && code ≤ 13) || code == 32 || code == 0x85 || code == 0xA0 || code == 0x1680 ||
    (0x2000 ≤ code && code ≤ 0x200A) || code == 0x2028 || code == 0x2029 || code == 0x202F ||
    code == 0x205F || code == 0x3000

/-- A space or a tab: what a line may be indented with. -/
def isIndentation (character : Char) : Bool :=
  character == ' ' || character == '\t'

/-- What separates the entries of an attribute list. -/
def isSeparator (character : Char) : Bool :=
  character == ' ' || character == '\n' || character == '\t'

/-- Drop white space at the start. -/
def trimStart (text : List Char) : List Char :=
  text.dropWhile isWhitespace

/-- Drop the characters at the end that satisfy a condition. -/
def dropEndWhile (condition : Char → Bool) (text : List Char) : List Char :=
  (text.reverse.dropWhile condition).reverse

/-- Drop white space at both ends. -/
def trim (text : List Char) : List Char :=
  dropEndWhile isWhitespace (trimStart text)

/-- Only white space. -/
def isBlank (text : List Char) : Bool :=
  text.all isWhitespace

end Offside.Text

namespace Offside

/-- The text without the white space at both ends. -/
def trimmed (text : String) : String :=
  String.ofList (Text.trim text.toList)

end Offside
