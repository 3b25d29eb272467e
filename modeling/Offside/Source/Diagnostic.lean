import Offside.Source.Excerpt

/-!
# Diagnostics

Each stage has its own type of causes. A diagnostic is a cause at a place, with the text of the
template it is about when that is at hand.
-/

namespace Offside

/-- A type of causes: each has a short code and a message in words. -/
class Cause (κ : Type) where
  /-- The reason, in capitals, as it stands in an error code. -/
  reason : κ → String
  /-- The message without place or excerpt. -/
  message : κ → String

/-- Something wrong at a place of a template. -/
structure Diagnostic (κ : Type) where
  cause : κ
  span : Span
  source : Option String := none
deriving DecidableEq

namespace Diagnostic

variable {κ : Type}

/-- Give the source of a diagnostic that has none. -/
def attach (source : String) (diagnostic : Diagnostic κ) : Diagnostic κ :=
  { diagnostic with source := diagnostic.source <|> some source }

variable [Cause κ]

/-- The full code of an error. -/
def code (diagnostic : Diagnostic κ) : String :=
  "PUGNEUM:" ++ Cause.reason diagnostic.cause

/-- The message alone. -/
def message (diagnostic : Diagnostic κ) : String :=
  Cause.message diagnostic.cause

/-- The message under its header and excerpt. -/
def text (diagnostic : Diagnostic κ) : String :=
  Excerpt.annotate diagnostic.message diagnostic.span (some diagnostic.span.column)
    diagnostic.source

end Diagnostic

end Offside
