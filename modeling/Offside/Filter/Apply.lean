import Offside.Event
import Offside.Filter.Set

/-!
# Applying filters

Each filter of a document, and each included file that goes through filters, becomes a text. A
filter inside the body of another one is applied first; of several filters of an included file the
last is applied first.
-/

namespace Offside

/-- What is counted and noted while filters are applied. -/
structure FilterState where
  applied : Nat := 0
  events : Array Event := #[]

/-- A computation that applies filters. -/
abbrev Filtering := EStateM (Diagnostic FilterFault) FilterState

namespace Filtering

/-- Fail at a span. -/
def fail {α : Type} (span : Span) (cause : FilterFault) : Filtering α :=
  throw ⟨cause, span, none⟩

/-- The value, or a failure at a span. -/
def require {α : Type} (span : Span) : Except FilterFault α → Filtering α
  | .ok value => return value
  | .error cause => fail span cause

/-- The text that a filter gave, or its failure at a span. -/
def accept (span : Span) (name : String) : Except String String → Filtering String
  | .ok text => return text
  | .error message => fail span (.refused name message)

/-- Note an event. -/
def note (event : Event) : Filtering Unit :=
  modify fun state => { state with events := state.events.push event }

/-- Count applied filters. -/
def count (filters : Nat) : Filtering Unit :=
  modify fun state => { state with applied := state.applied + filters }

end Filtering

/-- The text of the nodes that are text. -/
def bodyText (nodes : List Node) : String :=
  String.join (nodes.filterMap fun node =>
    match node with
    | .leaf _ (.text value _) => some value
    | _ => none)

/-- Send a text through a filter. -/
def FilterSet.applyToText (set : FilterSet) (name : String) (attributes : List Attribute)
    (text : String) (file : Option String) (span : Span) : Filtering String := do
  let (resolved, filter) ← Filtering.require span (set.find name)
  Filtering.note (.filterApplied name resolved)
  Filtering.accept span name (filter.ofText text (set.options name resolved attributes file))

/-- Send a text through the filters of an included file; the first one in the list comes first. -/
def FilterSet.applyInTurn (set : FilterSet) (file : Option String) :
    List IncludeFilter → String → Filtering String
  | [], text => return text
  | filter :: rest, text => do
      let text ← set.applyToText filter.name filter.attributes text file filter.span
      set.applyInTurn file rest text

/-- Send an included file through its filter, as bytes if the filter takes them. -/
def FilterSet.applyToFile (set : FilterSet) (entry : IncludeFilter) (reference : Reference)
    (span : Span) : Filtering String := do
  let (resolved, filter) ← Filtering.require entry.span (set.find entry.name)
  let options := set.options entry.name resolved entry.attributes reference.fullPath
  if filter.takesBytes then
    match reference.bytes with
    | none => Filtering.fail span (.unloadedFile reference.path)
    | some bytes => Filtering.accept entry.span entry.name (filter.ofBytes bytes options)
  else
    match reference.contents with
    | none => Filtering.fail span (.unloadedFile reference.path)
    | some contents => Filtering.accept entry.span entry.name (filter.ofText contents options)

mutual

/-- The node without filters. -/
def FilterSet.applyToNode (set : FilterSet) : Node → Filtering Node
  | .leaf span content => return .leaf span content
  | .branch span label children => do
      let children ← set.applyToNodes children
      match label with
      | .filter name attributes _ =>
          Filtering.count 1
          let text ← set.applyToText name attributes (bodyText children) span.file span
          return .leaf span (.text text false)
      | _ => return .branch span label children
  | .file span use reference loaded children =>
      match use with
      | .inclusion _ => return .file span use reference loaded (← set.applyToNodes children)
      | .raw filters =>
          match filters.reverse with
          | [] => return .file span use reference loaded children
          | innermost :: outer => do
              Filtering.count filters.length
              let text ← set.applyToFile innermost reference span
              let text ← set.applyInTurn reference.fullPath outer text
              return .leaf span (.text text false)
      | .inheritance => return .file span use reference loaded children

/-- The nodes without filters. -/
def FilterSet.applyToNodes (set : FilterSet) : List Node → Filtering (List Node)
  | [] => return []
  | node :: rest => do
      let node ← set.applyToNode node
      return node :: (← set.applyToNodes rest)

end

/-- The document with every filter applied. -/
def FilterSet.apply (set : FilterSet) (document : Document) :
    EStateM (Diagnostic FilterFault) (Array Event) Document := fun events =>
  match set.applyToNodes document.nodes { events := events } with
  | .ok nodes state =>
      .ok { document with nodes := nodes } (state.events.push (.filtersApplied state.applied))
  | .error fault state => .error fault state.events

end Offside
