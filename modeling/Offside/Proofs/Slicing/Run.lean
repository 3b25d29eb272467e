import Offside.Proofs.Slicing.Attributes
import Offside.Proofs.Slicing.Lines
import Offside.Token.Run

/-!
# Cutting a template by byte offsets

The run of a scanner is done once more by a reader, which computes a byte offset for whatever it
takes of the text. In no reachable state it asks for a slice that the text does not have, so that it
gives the tokens of the scanner, or fails with its fault.
-/

namespace Offside

namespace Slicing

open Offside.Bracket (byteLength)
open Text

variable {inner : Reading Unit} {innerRule : Scanning Unit}

/-! ### Steps -/

/-- The matcher for a filter of an include. -/
def includeFilter : Reading Bool :=
  Matcher.filter Matcher.attributes none

/-- The matcher for a text block. -/
def textBlock (inner : Reading Unit) : Reading Bool := do
  let text ← unread
  Matcher.textBlock Matcher.blankLine inner (text.length + 2) none

/-- The matcher of a step. The `inner` computation reads an interpolated tag to its end. -/
def matcher (inner : Reading Unit) : Step → Reading Bool
  | .blank => Matcher.blankLine
  | .endOfInput => Matcher.endOfInput
  | .endInterpolation => Matcher.endInterpolation
  | .yieldSlot => Matcher.keywordLine "yield" .yieldSlot
  | .doctype => Matcher.doctype
  | .default => Matcher.defaultKeyword
  | .inheritance => Matcher.inheritance
  | .append => Matcher.namedBlock "append" true .append
  | .prepend => Matcher.namedBlock "prepend" true .prepend
  | .block => Matcher.namedBlock "block" false .replace
  | .mixinBlock => Matcher.keywordLine "block" .mixinBlock
  | .inclusion => Matcher.inclusion includeFilter
  | .mixin => Matcher.mixin
  | .call => Matcher.call
  | .interpolation => Matcher.interpolation
  | .tag => Matcher.tag
  | .filter => Matcher.filter Matcher.attributes (some (textBlock inner))
  | .id => Matcher.id
  | .dot => Matcher.dot (textBlock inner)
  | .className => Matcher.className
  | .attributes => Matcher.attributes
  | .indentation => Matcher.indentation
  | .text => Matcher.text inner
  | .html => Matcher.html inner
  | .comment => Matcher.comment (textBlock inner)
  | .slash => Matcher.slash
  | .colon => Matcher.colon
  | .includeFilter => includeFilter
  | .path => Matcher.path
  | .textBlock => textBlock inner

/-- Try some steps in order; it is a fault when none of them matches. -/
def firstMatch (inner : Reading Unit) : List Step → Reading Unit
  | [] => failUnexpected
  | step :: rest => do
      if ← matcher inner step then
        return
      else
        firstMatch inner rest

/-- Read to the end, within the budget of a scanner. -/
def run : (budget : Nat) → Reading Unit
  | 0 => pure ()
  | budget + 1 => do
      let place ← here
      if place.ended then
        return
      else
        firstMatch (run budget) Step.order
        run budget

/-- Read everything that is unread. -/
def runAll : Reading Unit := do
  let text ← unread
  run (text.length + 2)

/-- A reader at the start of a source. -/
def Reader.start (options : TokenOptions) (source : String) (events : Array Event) : Reader where
  input := normalizeNewlines (dropMark source.toList)
  offset := 0
  place := { options.scanner source with unread := [], events := events }

/-- The tokens of a template, up to the end of the text. -/
def tokenize (source : String) (options : TokenOptions) :
    EStateM Halt (Array Event) (Array Token) := fun events =>
  match runAll (.start options source events) with
  | .ok _ reader =>
      .ok reader.place.tokens
        (reader.place.events.push (.lexed reader.place.found.length options.file))
  | .error halt reader => .error halt reader.place.events

/-! ### The reader of a scanner -/

theorem mirrors_includeFilter : Mirrors includeFilter (includeFilterStep []) :=
  Matcher.mirrors_filter Matcher.mirrors_attributes .none

theorem mirrors_textBlock (mirrors : Mirrors inner innerRule) :
    Mirrors (textBlock inner) (textBlockStep [] innerRule) := fun _ _ =>
  .unread (.get (Matcher.follows_textBlock mirrors fun asked => absurd rfl asked))

/-- The matcher of each step does what the rule of the step does. -/
theorem mirrors_matcher (mirrors : Mirrors inner innerRule) (step : Step) :
    Mirrors (matcher inner step) (step.rule [] innerRule) := by
  have block := mirrors_textBlock mirrors
  cases step with
  | blank => exact Matcher.mirrors_blankLine
  | endOfInput => exact Matcher.mirrors_endOfInput
  | endInterpolation => exact Matcher.mirrors_endInterpolation
  | yieldSlot => exact Matcher.mirrors_keywordLine _ _
  | doctype => exact Matcher.mirrors_doctype
  | default => exact Matcher.mirrors_defaultKeyword
  | inheritance => exact Matcher.mirrors_inheritance
  | append | prepend | block => exact Matcher.mirrors_namedBlock _ _ _
  | mixinBlock => exact Matcher.mirrors_keywordLine _ _
  | inclusion => exact Matcher.mirrors_inclusion mirrors_includeFilter
  | mixin => exact Matcher.mirrors_mixin
  | call => exact Matcher.mirrors_call
  | interpolation => exact Matcher.mirrors_interpolation
  | tag => exact Matcher.mirrors_tag
  | filter =>
      have filters := Matcher.mirrors_filter Matcher.mirrors_attributes (.some block)
      exact filters
  | id => exact Matcher.mirrors_id
  | dot => exact Matcher.mirrors_dot block
  | className => exact Matcher.mirrors_className
  | attributes => exact Matcher.mirrors_attributes
  | indentation => exact Matcher.mirrors_indentation
  | text => exact Matcher.mirrors_text mirrors
  | html => exact Matcher.mirrors_html mirrors
  | comment => exact Matcher.mirrors_comment block
  | slash => exact Matcher.mirrors_slash
  | colon => exact Matcher.mirrors_colon
  | includeFilter => exact mirrors_includeFilter
  | path => exact Matcher.mirrors_path
  | textBlock => exact block

theorem mirrors_firstMatch (mirrors : Mirrors inner innerRule) (steps : List Step) :
    Mirrors (firstMatch inner steps) (Offside.firstMatch [] innerRule steps) := by
  induction steps with
  | nil => exact fun _ _ => .unread (.fail rfl rfl rfl)
  | cons step steps ih =>
      intro front scanner
      refine .bind (mirrors_matcher mirrors step _ _) fun matched front after _ => ?_
      cases matched with
      | true => exact .pure
      | false => exact ih front after

/-- A reader runs as a scanner does, whatever their budget is. -/
theorem mirrors_run (budget : Nat) : Mirrors (run budget) (Offside.run [] budget) := by
  induction budget with
  | zero => exact fun _ _ => .pure
  | succ budget ih =>
      intro front scanner
      refine .here (.get ?_)
      change Follows (if scanner.ended then _ else _) _ (if scanner.ended then _ else _) _
      split
      · exact .pure
      · exact .bind (mirrors_firstMatch ih _ _ _) fun _ front after _ => ih front after

/-- What is done from a reader on does not panic. -/
def NeverPanics {α : Type} (reading : Reading α) (reader : Reader) : Prop :=
  ∀ stopped, reading reader ≠ .error .panic stopped

theorem Follows.neverPanics {α : Type} {reading : Reading α} {reader : Reader}
    {rule : Scanning α} {scanner : Scanner} (follows : Follows reading reader rule scanner) :
    NeverPanics reading reader := by
  intro stopped panics
  unfold Follows at follows
  rw [panics] at follows
  cases ruled : rule scanner with
  | ok value after =>
      rw [ruled] at follows
      obtain ⟨_, read⟩ := follows
      cases read
  | error fault after =>
      rw [ruled] at follows
      obtain ⟨_, read, _⟩ := follows
      cases read

/-! ### The states of a run -/

/-- The states that a reader comes to between its steps. An interpolated tag is read by a reader of
its own, which starts with the inside of the tag as its input. -/
inductive Reader.Reachable : Reader → Prop where
  | start (options : TokenOptions) (source : String) (events : Array Event) :
      Reachable (.start options source events)
  | nested (place : Scanner) (body : List Char) : Reachable ⟨body, 0, place.nest []⟩
  | step {reader after : Reader} {budget : Nat} {step : Step} {matched : Bool}
      (reachable : Reachable reader)
      (read : matcher (run budget) step reader = .ok matched after) : Reachable after

theorem start_eq_behind (options : TokenOptions) (source : String) (events : Array Event) :
    Reader.start options source events =
      .behind [] { options.scanner source with events := events } :=
  rfl

/-- Every state of a reader is the state of a scanner, with what is read in front. -/
theorem Reader.Reachable.exists_behind {reader : Reader} (reachable : reader.Reachable) :
    ∃ front scanner, reader = .behind front scanner := by
  induction reachable with
  | start options source events => exact ⟨[], _, start_eq_behind options source events⟩
  | nested place body => exact ⟨[], place.nest body, rfl⟩
  | @step reader after budget step matched _ read ih =>
      rcases ih with ⟨front, scanner, rfl⟩
      have follows := mirrors_matcher (mirrors_run budget) step front scanner
      unfold Follows at follows
      rw [read] at follows
      cases ruled : step.rule [] (Offside.run [] budget) scanner with
      | ok value later =>
          rw [ruled] at follows
          obtain ⟨front, read⟩ := follows
          cases read
          exact ⟨front, later, rfl⟩
      | error fault later =>
          rw [ruled] at follows
          obtain ⟨_, read, _⟩ := follows
          cases read

theorem tokenize_eq {options : TokenOptions} (noPlugins : options.plugins = []) (source : String)
    (events : Array Event) :
    tokenize source options events =
      match Offside.tokenize source options events with
      | .ok tokens log => .ok tokens log
      | .error fault log => .error (.fault fault) log := by
  have follows : Ends (runAll (.start options source events))
      (Offside.runAll [] { options.scanner source with events := events }) := by
    rw [start_eq_behind]
    exact Follows.unread (.get (mirrors_run _ _ _))
  rw [tokenize, Offside.tokenize, noPlugins]
  cases ruled : Offside.runAll [] { options.scanner source with events := events } with
  | ok value after =>
      rw [ruled] at follows
      rcases follows with ⟨front, read⟩
      rw [read]
      rfl
  | error fault after =>
      rw [ruled] at follows
      rcases follows with ⟨reader, read, log⟩
      rw [read]
      dsimp only
      rw [log]

/-- Cutting a source without plugins never asks for a slice that the text does not have. By byte
offsets it gives the tokens or the fault that it gives otherwise. In every reachable state, also of
the reader of an interpolated tag, the cursor is in range and between two characters, and neither a
step nor a whole run from there computes offsets that are out of order, out of range or inside of a
character. -/
theorem slices_exist {options : TokenOptions} (noPlugins : options.plugins = [])
    (source : String) (events : Array Event) :
    (tokenize source options events =
      match Offside.tokenize source options events with
      | .ok tokens log => .ok tokens log
      | .error fault log => .error (.fault fault) log) ∧
    ∀ reader : Reader, reader.Reachable →
      reader.offset ≤ byteLength reader.input ∧
      (∃ front, front <+: reader.input ∧ byteLength front = reader.offset) ∧
      (∀ budget step, NeverPanics (matcher (run budget) step) reader) ∧
      ∀ budget, NeverPanics (run budget) reader := by
  refine ⟨tokenize_eq noPlugins source events, fun reader reachable => ?_⟩
  rcases reachable.exists_behind with ⟨front, scanner, rfl⟩
  have boundary : front <+: (Reader.behind front scanner).input := List.prefix_append ..
  refine ⟨byteLength_le_of_front boundary, ⟨front, boundary, rfl⟩, fun budget step => ?_,
    fun budget => ?_⟩
  · exact (mirrors_matcher (mirrors_run budget) step front scanner).neverPanics
  · exact (mirrors_run budget front scanner).neverPanics

/-- Characters of two, three and four bytes next to brackets, quotes, markers and line ends. -/
theorem slices_exist_wide :
    ∃ tokens log, tokenize "p(é=\"ü\")\n  | € #[b 😀]ß\n:\"ö\"\n  ñ" {} #[] = .ok tokens log ∧
      tokens.toList.map Token.kind =
        [.tag "p", .startAttributes, .attributeEntry "é" (.text "ü"), .endAttributes, .indent 2,
          .text "€ ", .startInterpolation, .tag "b", .text "😀", .endInterpolation, .text "ß",
          .outdent, .filter "ö", .startTextBlock, .text "ñ", .endTextBlock, .eos] ∧
      ∀ reader : Reader, reader.Reachable → reader.offset ≤ byteLength reader.input := by
  rcases slices_exist (show ({} : TokenOptions).plugins = [] from rfl)
    "p(é=\"ü\")\n  | € #[b 😀]ß\n:\"ö\"\n  ñ" #[] with ⟨same, safe⟩
  have kindsFound : (match Offside.tokenize "p(é=\"ü\")\n  | € #[b 😀]ß\n:\"ö\"\n  ñ" {} #[] with
      | .ok tokens _ => tokens.toList.map Token.kind
      | .error _ _ => []) =
        [.tag "p", .startAttributes, .attributeEntry "é" (.text "ü"), .endAttributes, .indent 2,
          .text "€ ", .startInterpolation, .tag "b", .text "😀", .endInterpolation, .text "ß",
          .outdent, .filter "ö", .startTextBlock, .text "ñ", .endTextBlock, .eos] := by
    decide +kernel
  cases done : Offside.tokenize "p(é=\"ü\")\n  | € #[b 😀]ß\n:\"ö\"\n  ñ" {} #[] with
  | error fault log => simp [done] at kindsFound
  | ok tokens log =>
      rw [done] at same kindsFound
      exact ⟨tokens, log, same, kindsFound, fun reader reachable => (safe reader reachable).1⟩

end Slicing

end Offside
