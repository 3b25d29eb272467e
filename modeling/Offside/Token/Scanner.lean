import Offside.Bracket
import Offside.Event
import Offside.Text.Blank
import Offside.Text.Word
import Offside.Token.Basic
import Offside.Token.Fault

/-!
# The scanner

A scanner holds the text that is still unread and where it stands, the levels of indentation that
are open, and the tokens found so far. A rule looks at the start of the unread text; it either
declines, or reads something and adds tokens, or finds a fault.
-/

namespace Offside

/-- What one step of indentation is made of; the first indented line decides. -/
inductive IndentUnit where
  | tab
  | space
deriving DecidableEq

/-- The character of a unit. -/
def IndentUnit.character : IndentUnit → Char
  | tab => '\t'
  | space => ' '

/-- The state of cutting a text into tokens. -/
structure Scanner where
  /-- The name of the template, if it has one. -/
  file : Option String
  /-- The whole text of the template, for excerpts. -/
  source : String
  /-- Whether this is the inside of an interpolated tag, which ends at a square bracket. -/
  interpolated : Bool
  unread : List Char
  position : Position
  /-- The widths of the open levels of indentation, innermost first; the outermost level, of
  width zero, is left out. -/
  levels : List Nat
  unit : Option IndentUnit
  /-- Whether text may hold interpolations. -/
  markersAllowed : Bool
  ended : Bool
  /-- The tokens found so far, the last one first. -/
  found : List Token
  events : Array Event

namespace Scanner

/-- A scanner at the start of a text whose newlines are normalised. -/
def ofText (file : Option String) (interpolated : Bool) (position : Position)
    (text : List Char) : Scanner where
  file := file
  source := String.ofList text
  interpolated := interpolated
  unread := text
  position := position
  levels := []
  unit := none
  markersAllowed := true
  ended := false
  found := []
  events := #[]

/-- A scanner at the start of a source as it was read from a file. -/
def ofSource (source : String) (file : Option String) (interpolated : Bool)
    (position : Position) : Scanner :=
  ofText file interpolated position (Text.normalizeNewlines (Text.dropMark source.toList))

/-- A scanner for the inside of an interpolated tag that starts here. -/
def nest (scanner : Scanner) (body : List Char) : Scanner :=
  { scanner with
    interpolated := true
    unread := body
    levels := []
    unit := none
    markersAllowed := true
    ended := false
    found := [] }

/-- The tokens found so far, in order. -/
def tokens (scanner : Scanner) : Array Token :=
  scanner.found.reverse.toArray

/-- The span that starts here. -/
def span (scanner : Scanner) : Span :=
  .start scanner.file scanner.position

/-- A fault at this place. -/
def fault (scanner : Scanner) (cause : TokenFault) : Diagnostic TokenFault :=
  ⟨cause, scanner.span, some scanner.source⟩

/-- A fault at another position. -/
def faultAt (scanner : Scanner) (position : Position) (cause : TokenFault) :
    Diagnostic TokenFault :=
  ⟨cause, .start scanner.file position, some scanner.source⟩

/-- The fault that no rule accepts the text; it shows the first few characters. -/
def unexpected (scanner : Scanner) : Diagnostic TokenFault :=
  scanner.fault (.unexpectedText (String.ofList (scanner.unread.take 5)))

/-- Move to the right without reading. -/
def right (scanner : Scanner) (count : Nat) : Scanner :=
  { scanner with position := scanner.position.right count }

/-- Move over a text without reading it. -/
def past (scanner : Scanner) (text : List Char) : Scanner :=
  { scanner with position := scanner.position.past text }

/-- Move to the start of the next line without reading. -/
def nextLine (scanner : Scanner) : Scanner :=
  { scanner with position := ⟨scanner.position.line + 1, 1⟩ }

/-- Read `count` characters without moving. -/
def drop (scanner : Scanner) (count : Nat) : Scanner :=
  { scanner with unread := scanner.unread.drop count }

/-- Add a token that started at a position and ends here. -/
def push (scanner : Scanner) (kind : TokenKind) (start : Position) : Scanner :=
  { scanner with
    found := ⟨kind, .start scanner.file start, scanner.position⟩ :: scanner.found }

/-- Add a token that starts and ends here. -/
def pushHere (scanner : Scanner) (kind : TokenKind) : Scanner :=
  scanner.push kind scanner.position

/-- Add a finished token. -/
def pushToken (scanner : Scanner) (token : Token) : Scanner :=
  { scanner with found := token :: scanner.found }

/-- Read `count` characters of one line as a token. -/
def emit (scanner : Scanner) (kind : TokenKind) (count : Nat) : Scanner :=
  ((scanner.drop count).right (scanner.unread.take count).length).push kind scanner.position

/-- Note an event. -/
def note (scanner : Scanner) (event : Event) : Scanner :=
  { scanner with events := scanner.events.push event }

/-- The width of the innermost open level. -/
def top (scanner : Scanner) : Nat :=
  scanner.levels.headD 0

/-- The text up to the bracket that closes one opened at the end of `opening`, and what follows
it. A fault is reported where the scan for the bracket stopped. -/
def bracketed (scanner : Scanner) (opening : List Char) (close : Char) (text : List Char) :
    Except (Diagnostic TokenFault) (List Char × List Char) :=
  match Bracket.find close text with
  | .closed body rest => .ok (body, rest)
  | .unclosed =>
      .error (scanner.faultAt (scanner.position.past (opening ++ text)) (.noEndBracket close))
  | .mismatched body expected found =>
      .error (scanner.faultAt (scanner.position.past (opening ++ body))
        (.bracketMismatch expected found))

end Scanner

/-- A computation on a scanner. The scanner is kept when it fails, for the sake of its events. -/
abbrev Scanning := EStateM (Diagnostic TokenFault) Scanner

/-- A rule that matches or declines. -/
abbrev SimpleRule := Scanner → Option Scanner

/-- A rule that matches, declines or finds a fault. -/
abbrev CheckedRule := Scanner → Except (Diagnostic TokenFault) (Option Scanner)

/-- Run a simple rule; a rule that declines changes nothing. -/
def SimpleRule.run (rule : SimpleRule) : Scanning Bool := fun scanner =>
  match rule scanner with
  | some next => .ok true next
  | none => .ok false scanner

/-- Run a checked rule; a rule that declines changes nothing. -/
def CheckedRule.run (rule : CheckedRule) : Scanning Bool := fun scanner =>
  match rule scanner with
  | .ok (some next) => .ok true next
  | .ok none => .ok false scanner
  | .error fault => .error fault scanner

/-- The rules, in the order in which they are tried, and then those that only others use. -/
inductive Step where
  | blank
  | endOfInput
  | endInterpolation
  | yieldSlot
  | doctype
  | default
  | inheritance
  | append
  | prepend
  | block
  | mixinBlock
  | inclusion
  | mixin
  | call
  | interpolation
  | tag
  | filter
  | id
  | dot
  | className
  | attributes
  | indentation
  | text
  | html
  | comment
  | slash
  | colon
  | includeFilter
  | path
  | textBlock
deriving DecidableEq

/-- An extension: it is asked before each rule and may take the rule's place. -/
abbrev Plugin := Step → Scanning Bool

/-- Ask the plugins in turn, then the rule. -/
def consult (plugins : List Plugin) (step : Step) (rule : Scanning Bool) : Scanning Bool :=
  match plugins with
  | [] => rule
  | plugin :: rest => do
      if ← plugin step then
        return true
      consult rest step rule

/-- Repeat a rule as long as it matches, at most `budget` times. -/
def repeatRule (rule : Scanning Bool) : (budget : Nat) → Scanning Unit
  | 0 => pure ()
  | budget + 1 => do
      if ← rule then
        repeatRule rule budget

end Offside
