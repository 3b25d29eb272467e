import Offside.Text.Hexadecimal

/-!
# JSON

Values with ordered fields, written out over several lines. Fields are printed in the order in
which they were put into the object, and a name may occur more than once.
-/

namespace Offside

/-- A JSON value; numbers are natural numbers. -/
inductive Json where
  | null
  | bool (value : Bool)
  | number (value : Nat)
  | string (value : String)
  | array (items : List Json)
  | object (fields : List (String × Json))

namespace Json

/-- The string, or null. -/
def ofString? : Option String → Json
  | some value => string value
  | none => null

/-- A character inside a string literal. -/
def escape (character : Char) : List Char :=
  let code := character.toNat
  if character = '\x22' then ['\\', '\x22']
  else if character = '\\' then ['\\', '\\']
  else if code = 8 then ['\\', 'b']
  else if code = 9 then ['\\', 't']
  else if code = 10 then ['\\', 'n']
  else if code = 12 then ['\\', 'f']
  else if code = 13 then ['\\', 'r']
  else if code < 32 then ['\\', 'u', '0', '0', Text.hexDigit (code / 16), Text.hexDigit (code % 16)]
  else [character]

/-- A string literal. -/
def quote (text : String) : String :=
  "\x22" ++ String.ofList (text.toList.flatMap escape) ++ "\x22"

/-- A new line with some levels of indentation. -/
def newLine (depth : Nat) : String :=
  "\n" ++ String.ofList (List.replicate (2 * depth) ' ')

/-- Items between brackets, each on a line of its own. -/
def enclose (opening closing : String) (depth : Nat) (items : List String) : String :=
  if items.isEmpty then
    opening ++ closing
  else
    opening ++ ",".intercalate (items.map (newLine (depth + 1) ++ ·)) ++ newLine depth ++ closing

mutual

/-- The text of a value that starts at a depth of indentation. -/
def printAt (depth : Nat) : Json → String
  | null => "null"
  | bool true => "true"
  | bool false => "false"
  | number value => toString value
  | string value => quote value
  | array items => enclose "[" "]" depth (printItems (depth + 1) items)
  | object fields => enclose "\x7b" "\x7d" depth (printFields (depth + 1) fields)

/-- The texts of the items of an array. -/
def printItems (depth : Nat) : List Json → List String
  | [] => []
  | item :: rest => printAt depth item :: printItems depth rest

/-- The texts of the fields of an object. -/
def printFields (depth : Nat) : List (String × Json) → List String
  | [] => []
  | (name, value) :: rest =>
      (quote name ++ ": " ++ printAt depth value) :: printFields depth rest

end

/-- The text of a value. -/
def print (value : Json) : String :=
  value.printAt 0

end Json

end Offside
