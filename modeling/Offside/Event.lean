/-!
# Events

While a template is worked on, each stage notes what it did. The notes are values, kept in order,
and are there for the part of the work that was done before a failure, too.
-/

namespace Offside

/-- How much an event matters. -/
inductive Level where
  | warn
  | debug
  | trace
deriving DecidableEq

namespace Level

/-- The level's name in capitals. -/
def name : Level → String
  | warn => "WARN"
  | debug => "DEBUG"
  | trace => "TRACE"

/-- Higher is more detailed. -/
def detail : Level → Nat
  | warn => 0
  | debug => 1
  | trace => 2

end Level

/-- A detail of an event. -/
inductive Field where
  | number (value : Nat)
  | text (value : String)
deriving DecidableEq

/-- Something a stage did. -/
inductive Event where
  | lexed (tokens : Nat) (file : Option String)
  | indented (width : Nat)
  | outdented (levels width : Nat)
  | attributesRepeated (file : Option String) (line : Nat)
  | parsed (nodes : Nat) (file : Option String)
  | fileRead (path : String) (bytes : Nat)
  | loaded (files : Nat) (file : Option String)
  | ancestorEntered (path : String)
  | blockMerged (block mode : String)
  | linked (merged includes nodes : Nat)
  | filterApplied (filter resolved : String)
  | filtersApplied (count : Nat)
  | mixinDeclared (mixin : String) (parameters : Nat)
  | mixinCalled (mixin : String) (depth : Nat)
  | rendered (bytes mixins : Nat)
  /-- A note made by an extension of the tokenizer; it has no level. -/
  | remark (text : String)
deriving DecidableEq

namespace Event

/-- A file's name, or a stand-in for text that has none. -/
def fileName (file : Option String) : Field :=
  .text (file.getD "<anonymous>")

/-- The level of an event, none for a remark. -/
def level : Event → Option Level
  | attributesRepeated .. => some .warn
  | lexed .. | parsed .. | loaded .. | linked .. | filtersApplied .. | rendered .. => some .debug
  | indented .. | outdented .. | fileRead .. | ancestorEntered .. | blockMerged ..
  | filterApplied .. | mixinDeclared .. | mixinCalled .. => some .trace
  | remark .. => none

/-- The event in a few words. -/
def message : Event → String
  | lexed .. => "lexed template"
  | indented .. => "indent"
  | outdented .. => "outdent"
  | attributesRepeated .. => "You should not have pugneum tags with multiple attributes."
  | parsed .. => "parsed template"
  | fileRead .. => "read include"
  | loaded .. => "loaded includes"
  | ancestorEntered .. => "linking ancestor"
  | blockMerged .. => "merged block"
  | linked .. => "linked tree"
  | filterApplied .. => "applying filter"
  | filtersApplied .. => "applied filters"
  | mixinDeclared .. => "declared mixin"
  | mixinCalled .. => "calling mixin"
  | rendered .. => "rendered document"
  | remark text => text

/-- The named details of an event. -/
def fields : Event → List (String × Field)
  | lexed tokens file => [("tokens", .number tokens), ("file", fileName file)]
  | indented width => [("width", .number width)]
  | outdented levels width => [("outdents", .text (toString levels)), ("width", .number width)]
  | attributesRepeated file line => [("file", fileName file), ("line", .number line)]
  | parsed nodes file => [("nodes", .number nodes), ("file", fileName file)]
  | fileRead path bytes => [("path", .text path), ("bytes", .number bytes)]
  | loaded files file => [("files", .number files), ("file", fileName file)]
  | ancestorEntered path => [("path", .text path)]
  | blockMerged block mode => [("block", .text block), ("mode", .text mode)]
  | linked merged includes nodes =>
      [("merged", .number merged), ("includes", .number includes), ("nodes", .number nodes)]
  | filterApplied filter resolved => [("filter", .text filter), ("resolved", .text resolved)]
  | filtersApplied count => [("applied", .number count)]
  | mixinDeclared mixin parameters =>
      [("mixin", .text mixin), ("params", .number parameters)]
  | mixinCalled mixin depth => [("mixin", .text mixin), ("depth", .number depth)]
  | rendered bytes mixins => [("bytes", .number bytes), ("mixins", .number mixins)]
  | remark _ => []

end Event

end Offside
