import Offside.Document.Source
import Offside.Inclusion.Resolve
import Offside.Text.Utf8

/-!
# Loading files

The files that a document refers to are read. Those that are templates are documents themselves,
whose files are loaded in turn, one level deeper; the number of levels is limited, so that loading
ends even if a template includes itself.
-/

namespace Offside

/-- How files are found and read. -/
structure LoadOptions where
  /-- The path of a file, given the path as it is written and the file in which it is written. -/
  resolve : (path : String) → (source : Option String) → Except LoadFault String :=
    resolvePath none
  /-- The bytes of the file at a path, or a message that says why it cannot be read. -/
  read : String → Except String (List UInt8)
  maxDepth : Nat := 64
  extensions : Extensions := {}

/-- What is counted and noted while files are loaded. -/
structure LoadState where
  files : Nat := 0
  events : Array Event := #[]

/-- A computation that loads files. -/
abbrev Loading := EStateM Failure LoadState

/-- The file in which some nodes are written, and its text. -/
structure Origin where
  file : Option String
  source : Option String

namespace Loading

/-- Fail at a span of a file. -/
def fail {α : Type} (origin : Origin) (span : Span) (cause : LoadFault) : Loading α :=
  throw (.load ⟨cause, span, origin.source⟩)

/-- The value, or a failure at a span of a file. -/
def require {α : Type} (origin : Origin) (span : Span) : Except LoadFault α → Loading α
  | .ok value => return value
  | .error cause => fail origin span cause

/-- Count a file that was read. -/
def countFile (path : String) (bytes : Nat) : Loading Unit :=
  modify fun state =>
    { state with files := state.files + 1, events := state.events.push (.fileRead path bytes) }

/-- Do something that only notes events. -/
def noting {α : Type} (action : EStateM Failure (Array Event) α) : Loading α := fun state =>
  match action state.events with
  | .ok value events => .ok value { state with events := events }
  | .error failure events => .error failure { state with events := events }

/-- How to load the files of an included template, which is one level deeper. There may be no
deeper level. -/
abbrev Deeper := Option (Origin → List Node → Loading (List Node))

end Loading

/-- The bytes of a file. -/
def LoadOptions.bytesOf (options : LoadOptions) (path : String) : Except LoadFault (List UInt8) :=
  match options.read path with
  | .ok bytes => .ok bytes
  | .error message => .error (.unreadable path message)

/-- The nodes of an included template, with its files. -/
def loadTemplate (options : LoadOptions) (deeper : Loading.Deeper) (origin : Origin) (span : Span)
    (path contents : String) : Loading Document :=
  match deeper with
  | none => Loading.fail origin span (.tooDeep options.maxDepth)
  | some deeper => do
      let document ←
        Loading.noting (Document.ofSource options.extensions (some path) contents)
      return { document with nodes := ← deeper ⟨some path, some contents⟩ document.nodes }

/-- Load the file of a reference, unless its text is already known. -/
def loadReference (options : LoadOptions) (deeper : Loading.Deeper) (origin : Origin) (span : Span)
    (use : FileUse) (reference : Reference) (loaded : List Node) :
    Loading (Reference × List Node) :=
  match reference.contents with
  | some _ => return (reference, loaded)
  | none => do
      let path ← Loading.require origin span (options.resolve reference.path origin.file)
      let bytes ← Loading.require origin span (options.bytesOf path)
      let contents := Text.decodeLossy bytes
      Loading.countFile path bytes.length
      let found : Reference :=
        { reference with
          fullPath := some path
          contents := some contents
          bytes := some bytes }
      match use with
      | .raw _ => return (found, loaded)
      | .inclusion _ | .inheritance => do
          let document ← loadTemplate options deeper origin span path contents
          return ({ found with root := some document.span }, document.nodes)

mutual

/-- A node with its files. -/
def loadNode (options : LoadOptions) (deeper : Loading.Deeper) (origin : Origin) :
    Node → Loading Node
  | .leaf span content => return .leaf span content
  | .branch span label children =>
      return .branch span label (← loadNodes options deeper origin children)
  | .file span use reference loaded children => do
      let (reference, loaded) ← loadReference options deeper origin span use reference loaded
      match use with
      | .inclusion _ =>
          return .file span use reference loaded (← loadNodes options deeper origin children)
      | .raw _ | .inheritance => return .file span use reference loaded children

/-- Nodes with their files. -/
def loadNodes (options : LoadOptions) (deeper : Loading.Deeper) (origin : Origin) :
    List Node → Loading (List Node)
  | [] => return []
  | node :: rest => do
      let node ← loadNode options deeper origin node
      return node :: (← loadNodes options deeper origin rest)

end

/-- How to load when a number of further levels is allowed. -/
def loadLevels (options : LoadOptions) : (remaining : Nat) → Loading.Deeper
  | 0 => none
  | remaining + 1 => some fun origin nodes =>
      loadNodes options (loadLevels options remaining) origin nodes

/-- The document with all files that it refers to, directly or through other templates. -/
def load (document : Document) (origin : Origin) (options : LoadOptions) :
    EStateM Failure (Array Event) Document := fun events =>
  let deeper := loadLevels options options.maxDepth
  match loadNodes options deeper origin document.nodes { events := events } with
  | .ok nodes state =>
      .ok { document with nodes := nodes } (state.events.push (.loaded state.files origin.file))
  | .error failure state => .error failure state.events

end Offside
