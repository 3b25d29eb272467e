import Offside.Document.Basic
import Offside.Event
import Offside.Grammar.Fault

/-!
# Streams of tokens

A document is read from a stream of tokens. Tokens can be put back, and past the end there is no
end of end tokens.
-/

namespace Offside

/-- The tokens that are still to be read. -/
structure TokenStream where
  /-- The name of the template; where it is known it takes the place of the tokens' files. -/
  file : Option String
  /-- The text of the template, for excerpts. -/
  source : Option String
  pending : List Token
  /-- What is read past the end. -/
  ending : Token
  events : Array Event

namespace TokenStream

/-- The end token for a list of tokens stands where the last of them does. -/
def endingOf (tokens : List Token) : Token :=
  match tokens.getLast? with
  | some last => ⟨.eos, last.span, last.stop⟩
  | none => ⟨.eos, ⟨none, 1, 1⟩, ⟨1, 1⟩⟩

/-- A stream of a list of tokens. -/
def ofTokens (file source : Option String) (tokens : List Token) : TokenStream :=
  ⟨file, source, tokens, endingOf tokens, #[]⟩

/-- The token that is read next. -/
def next (stream : TokenStream) : Token :=
  stream.pending.headD stream.ending

/-- A span of this template. -/
def place (stream : TokenStream) (span : Span) : Span :=
  { span with file := stream.file <|> span.file }

/-- A fault at a span. -/
def fault (stream : TokenStream) (span : Span) (cause : ParseFault) : Diagnostic ParseFault :=
  ⟨cause, stream.place span, stream.source⟩

end TokenStream

/-- Why reading stops without a result. -/
inductive ParseStop where
  | fault (fault : Diagnostic ParseFault)
  /-- The budget of steps was too small. -/
  | exhausted

/-- A computation on a stream of tokens. The stream is kept when it fails. -/
abbrev Parsing := EStateM ParseStop TokenStream

namespace Parsing

/-- The next token, which stays in the stream. -/
def peek : Parsing Token :=
  return (← get).next

/-- Read the next token. -/
def advance : Parsing Token := do
  let stream ← get
  set { stream with pending := stream.pending.tail }
  return stream.next

/-- Put a token back. -/
def defer (token : Token) : Parsing Unit :=
  modify fun stream => { stream with pending := token :: stream.pending }

/-- Fail at a span. -/
def fail {α : Type} (span : Span) (cause : ParseFault) : Parsing α := do
  throw (.fault ((← get).fault span cause))

/-- Read a token of a given name. -/
def expect (name : String) : Parsing Token := do
  let token ← peek
  if token.name = name then
    advance
  else
    fail token.span (.expected name token.name)

/-- Read a path, without the white space around it. -/
def expectPath : Parsing (Token × String) := do
  let token ← peek
  match token.kind with
  | .path value =>
      let _ ← advance
      return (token, trimmed value)
  | _ => fail token.span (.expected "path" token.name)

/-- A span of this template. -/
def place (span : Span) : Parsing Span :=
  return (← get).place span

/-- A text node where a token stands. -/
def textNode (token : Token) (value : String) : Parsing Node :=
  return .leaf (← place token.span) (.text value false)

end Parsing

end Offside
