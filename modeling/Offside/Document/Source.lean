import Offside.Failure
import Offside.Grammar.Expression
import Offside.Token.Run

/-!
# The document of a source

The text of one file is cut into tokens, and these form a document. Both steps can be extended.
-/

namespace Offside

/-- What is added to the language of templates. -/
structure Extensions where
  plugins : List Plugin := []
  hooks : Hooks := Hooks.none

/-- The document that a text stands for; other files that it refers to are not loaded. -/
def Document.ofSource (extensions : Extensions) (file : Option String) (source : String) :
    EStateM Failure (Array Event) Document := do
  let tokens ← (tokenize source { file, plugins := extensions.plugins }).adaptExcept .token
  (parse tokens.toList { file, source := some source, hooks := extensions.hooks }).adaptExcept
    .parse

end Offside
