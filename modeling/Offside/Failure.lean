import Offside.Filter.Fault
import Offside.Grammar.Fault
import Offside.Html.Fault
import Offside.Inclusion.Fault
import Offside.Inheritance.Fault
import Offside.Token.Fault

/-!
# Failures

What can go wrong between the text of a template and its page, at whatever stage.
-/

namespace Offside

/-- A diagnostic of one of the stages. -/
inductive Failure where
  | token (diagnostic : Diagnostic TokenFault)
  | parse (diagnostic : Diagnostic ParseFault)
  | load (diagnostic : Diagnostic LoadFault)
  | link (diagnostic : Diagnostic LinkFault)
  | filter (diagnostic : Diagnostic FilterFault)
  | render (diagnostic : Diagnostic RenderFault)
deriving DecidableEq

namespace Failure

/-- Give the source of a failure that has none. -/
def attach (source : String) : Failure → Failure
  | token diagnostic => token (diagnostic.attach source)
  | parse diagnostic => parse (diagnostic.attach source)
  | load diagnostic => load (diagnostic.attach source)
  | link diagnostic => link (diagnostic.attach source)
  | filter diagnostic => filter (diagnostic.attach source)
  | render diagnostic => render (diagnostic.attach source)

/-- Where the failure is. -/
def span : Failure → Span
  | token diagnostic => diagnostic.span
  | parse diagnostic => diagnostic.span
  | load diagnostic => diagnostic.span
  | link diagnostic => diagnostic.span
  | filter diagnostic => diagnostic.span
  | render diagnostic => diagnostic.span

/-- The message under its header and excerpt. -/
def text : Failure → String
  | token diagnostic => diagnostic.text
  | parse diagnostic => diagnostic.text
  | load diagnostic => diagnostic.text
  | link diagnostic => diagnostic.text
  | filter diagnostic => diagnostic.text
  | render diagnostic => diagnostic.text

end Failure

end Offside
