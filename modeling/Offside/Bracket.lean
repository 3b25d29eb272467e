/-!
# Matching brackets

Attribute lists, call arguments and interpolated expressions end at the bracket that closes them.
The scan counts nested round, square and curly brackets and skips what stands in string literals
and in comments, so that the closing bracket of `a(title="(")` is the last character.
-/

namespace Offside.Bracket

/-- The closing counterpart of an opening bracket. -/
def closing : Char → Option Char
  | '(' => some ')'
  | '\x7b' => some '\x7d'
  | '[' => some ']'
  | _ => none

/-- One of the three closing brackets. -/
def isClosing (character : Char) : Bool :=
  character == ')' || character == '\x7d' || character == ']'

/-- One of the three quotes that open a string literal. -/
def isQuote (character : Char) : Bool :=
  character == '\x27' || character == '\x22' || character == '\x60'

/-- What the scan is inside of. -/
inductive Context where
  | code
  | literal (quote : Char)
  | lineComment
  | blockComment
deriving DecidableEq

/-- How a scan ends. -/
inductive Outcome where
  /-- The closing bracket was found after `body`, and `rest` follows it. -/
  | closed (body rest : List Char)
  /-- The text ended first. -/
  | unclosed
  /-- After `body` stands a closing bracket other than the expected one. -/
  | mismatched (body : List Char) (expected found : Char)
deriving DecidableEq

/-- The outcome of a scan that began one character earlier. -/
def Outcome.cons (character : Char) : Outcome → Outcome
  | closed body rest => closed (character :: body) rest
  | unclosed => unclosed
  | mismatched body expected found => mismatched (character :: body) expected found

/-- Scan for an unnested `close`. The stack holds the brackets that would close the open ones,
innermost first. -/
def scan (close : Char) : Context → List Char → List Char → Outcome
  | _, _, [] => .unclosed
  | .literal quote, stack, character :: text =>
      if character = '\\' then
        match text with
        | [] => .unclosed
        | escaped :: text => (scan close (.literal quote) stack text).cons escaped |>.cons character
      else if character = quote then
        (scan close .code stack text).cons character
      else
        (scan close (.literal quote) stack text).cons character
  | .lineComment, stack, character :: text =>
      if character = '\n' then
        (scan close .code stack text).cons character
      else
        (scan close .lineComment stack text).cons character
  | .blockComment, stack, '*' :: '/' :: text =>
      (scan close .code stack text).cons '/' |>.cons '*'
  | .blockComment, stack, character :: text =>
      (scan close .blockComment stack text).cons character
  | .code, stack, '/' :: '/' :: text =>
      (scan close .lineComment stack text).cons '/' |>.cons '/'
  | .code, stack, '/' :: '*' :: text =>
      (scan close .blockComment stack text).cons '*' |>.cons '/'
  | .code, stack, character :: text =>
      if isQuote character then
        (scan close (.literal character) stack text).cons character
      else
        match closing character with
        | some counterpart => (scan close .code (counterpart :: stack) text).cons character
        | none =>
            if isClosing character then
              match stack with
              | [] =>
                  if character = close then .closed [] text
                  else .mismatched [] close character
              | expected :: stack =>
                  if character = expected then (scan close .code stack text).cons character
                  else .mismatched [] expected character
            else
              (scan close .code stack text).cons character

/-- Scan for the `close` that ends a bracketed text whose opening bracket has just been read. -/
def find (close : Char) (text : List Char) : Outcome :=
  scan close .code [] text

/-! ### Regions of a text, by byte offset -/

/-- How many bytes a text takes in UTF-8. -/
def byteLength : List Char → Nat
  | [] => 0
  | character :: text => character.utf8Size + byteLength text

/-- Drop `count` bytes. A character that would be cut is dropped whole. -/
def dropBytes : Nat → List Char → List Char
  | 0, text => text
  | _, [] => []
  | count, character :: text => dropBytes (count - character.utf8Size) text

/-- A bracketed region: the offsets of its first byte and of the closing bracket, and its text. -/
structure Region where
  first : Nat
  last : Nat
  body : String
deriving DecidableEq

/-- Why there is no region, and at which byte the scan stopped. -/
inductive Fault where
  | unclosed (index : Nat)
  | mismatched (index : Nat) (expected found : Char)
deriving DecidableEq

/-- The region that starts at byte `first` of a text and ends before an unnested `close`. -/
def region (text : List Char) (first : Nat) (close : Char) : Except Fault Region :=
  match find close (dropBytes first text) with
  | .closed body _ => .ok ⟨first, first + byteLength body, String.ofList body⟩
  | .unclosed => .error (.unclosed (byteLength text))
  | .mismatched body expected found =>
      .error (.mismatched (first + byteLength body) expected found)

end Offside.Bracket
