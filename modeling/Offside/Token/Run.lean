import Offside.Token.Attribute
import Offside.Token.Keyword
import Offside.Token.Name
import Offside.Token.TextBlock

/-!
# Cutting a template into tokens

The rules are tried in a fixed order at each place, and the first that matches is taken; a place
where no rule matches is a fault. The run ends at the end of the text, or, inside an interpolated
tag, at the bracket that closes it.
-/

namespace Offside

/-- The steps in the order in which they are tried. -/
def Step.order : List Step :=
  [.blank, .endOfInput, .endInterpolation, .yieldSlot, .doctype, .default, .inheritance, .append,
    .prepend, .block, .mixinBlock, .inclusion, .mixin, .call, .interpolation, .tag, .filter, .id,
    .dot, .className, .attributes, .indentation, .text, .html, .comment, .slash, .colon]

section

variable (plugins : List Plugin) (inner : Scanning Unit)

/-- The rule for a blank line, after the plugins. -/
def blankStep : Scanning Bool :=
  consult plugins .blank (SimpleRule.run Rule.blankLine)

/-- The rule for a path, after the plugins. -/
def pathStep : Scanning Bool :=
  consult plugins .path Rule.path

/-- The rule for an attribute list, after the plugins. -/
def attributesStep : Scanning Bool :=
  consult plugins .attributes (CheckedRule.run Rule.attributes)

/-- The rule for a filter of an include, after the plugins. -/
def includeFilterStep : Scanning Bool :=
  consult plugins .includeFilter (Rule.filter (attributesStep plugins) none)

/-- The rule for a text block, after the plugins. -/
def textBlockStep : Scanning Bool :=
  consult plugins .textBlock do
    Rule.textBlock (blankStep plugins) inner ((← get).unread.length + 2) none

/-- The rule of a step. The `inner` computation reads an interpolated tag to its end. -/
def Step.rule : Step → Scanning Bool
  | .blank => SimpleRule.run Rule.blankLine
  | .endOfInput => CheckedRule.run Rule.endOfInput
  | .endInterpolation => SimpleRule.run Rule.endInterpolation
  | .yieldSlot => SimpleRule.run (Rule.keywordLine "yield" .yieldSlot)
  | .doctype => SimpleRule.run Rule.doctype
  | .default => CheckedRule.run Rule.defaultKeyword
  | .inheritance => Rule.inheritance (pathStep plugins)
  | .append => SimpleRule.run (Rule.namedBlock "append" true .append)
  | .prepend => SimpleRule.run (Rule.namedBlock "prepend" true .prepend)
  | .block => SimpleRule.run (Rule.namedBlock "block" false .replace)
  | .mixinBlock => SimpleRule.run (Rule.keywordLine "block" .mixinBlock)
  | .inclusion => Rule.inclusion (includeFilterStep plugins) (pathStep plugins)
  | .mixin => SimpleRule.run Rule.mixin
  | .call => CheckedRule.run Rule.call
  | .interpolation => CheckedRule.run Rule.interpolation
  | .tag => SimpleRule.run Rule.tag
  | .filter => Rule.filter (attributesStep plugins) (some (textBlockStep plugins inner))
  | .id => CheckedRule.run Rule.id
  | .dot => Rule.dot (textBlockStep plugins inner)
  | .className => CheckedRule.run Rule.className
  | .attributes => CheckedRule.run Rule.attributes
  | .indentation => CheckedRule.run Rule.indentation
  | .text => Rule.text inner
  | .html => Rule.html inner
  | .comment => Rule.comment (textBlockStep plugins inner)
  | .slash => SimpleRule.run Rule.slash
  | .colon => SimpleRule.run Rule.colon
  | .includeFilter => Rule.filter (attributesStep plugins) none
  | .path => Rule.path
  | .textBlock => do
      Rule.textBlock (blankStep plugins) inner ((← get).unread.length + 2) none

/-- Try some steps in order; it is a fault when none of them matches. -/
def firstMatch : List Step → Scanning Unit
  | [] => do throw (← get).unexpected
  | step :: rest => do
      if ← consult plugins step (step.rule plugins inner) then
        return
      firstMatch rest

end

/-- Read to the end. Every step but the last reads at least one character, and an interpolated tag
is shorter than the text it stands in, so that a budget of two more than the length of the unread
text is enough. -/
def run (plugins : List Plugin) : (budget : Nat) → Scanning Unit
  | 0 => pure ()
  | budget + 1 => do
      if (← get).ended then
        return
      firstMatch plugins (run plugins budget) Step.order
      run plugins budget

/-- Read everything that is unread. -/
def runAll (plugins : List Plugin) : Scanning Unit := do
  run plugins ((← get).unread.length + 2)

/-- Options for cutting a text into tokens. -/
structure TokenOptions where
  file : Option String := none
  start : Position := ⟨1, 1⟩
  interpolated : Bool := false
  plugins : List Plugin := []

/-- The scanner at the start of a source. -/
def TokenOptions.scanner (options : TokenOptions) (source : String) : Scanner :=
  .ofSource source options.file options.interpolated options.start

/-- The tokens of a template, up to the end of the text. -/
def tokenize (source : String) (options : TokenOptions) :
    EStateM (Diagnostic TokenFault) (Array Event) (Array Token) := fun events =>
  match runAll options.plugins { options.scanner source with events := events } with
  | .ok _ scanner =>
      .ok scanner.tokens
        (scanner.events.push (.lexed scanner.found.length options.file))
  | .error fault scanner => .error fault scanner.events

end Offside
