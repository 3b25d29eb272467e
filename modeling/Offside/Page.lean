import Offside.Files.Fault
import Offside.Filter.Apply
import Offside.Html.Render
import Offside.Inclusion.Load
import Offside.Inclusion.Sources
import Offside.Inheritance.Link

/-!
# From a template to a page

The text of a template becomes a document, its files are loaded and linked into one document,
filters are applied, and the page is written. Whatever fails is shown with the lines of the file in
which it stands.
-/

namespace Offside

/-- Options for making a page. -/
structure PageOptions where
  /-- The directory from which absolute paths lead. -/
  baseDirectory : Option String := none
  filters : FilterSet := {}
  globals : List (String × String) := []
  maxIncludeDepth : Nat := 64
  maxMixinDepth : Nat := 256

/-- How the bytes at a path are read, or why they cannot be. -/
abbrev Reader := String → Except String (List UInt8)

/-- A computation between a template and its page. -/
abbrev Compiling := EStateM Failure (Array Event)

namespace PageOptions

/-- The options for loading files. -/
def loading (options : PageOptions) (read : Reader) : LoadOptions where
  resolve := resolvePath options.baseDirectory
  read := read
  maxDepth := options.maxIncludeDepth

/-- The options for rendering. -/
def rendering (options : PageOptions) : Html.RenderOptions where
  globals := options.globals
  maxMixinDepth := options.maxMixinDepth

end PageOptions

/-- The linked document of a template, and the sources it was made of. -/
def compileWithSources (options : PageOptions) (read : Reader) (file : Option String)
    (source : String) : Compiling (Document × Sources) := do
  let document ← Document.ofSource {} file source
  let loaded ← load document ⟨file, some source⟩ (options.loading read)
  let sources := Sources.ofDocument file source loaded
  let linked ← (link loaded).adaptExcept fun fault => sources.attach (.link fault)
  return (linked, sources)

/-- The linked document of a template. -/
def compile (options : PageOptions) (read : Reader) (file : Option String) (source : String) :
    Compiling Document := do
  let (document, _) ← compileWithSources options read file source
  return document

/-- The page of a template. -/
def renderText (options : PageOptions) (read : Reader) (file : Option String) (source : String) :
    Compiling String := do
  let (document, sources) ← compileWithSources options read file source
  let filtered ← (options.filters.apply document).adaptExcept fun fault =>
    sources.attach (.filter fault)
  (Html.render filtered options.rendering).adaptExcept fun fault => sources.attach (.render fault)

/-- The text of a file, or why it cannot be read. -/
def readText (read : Reader) (path : String) : Except String String :=
  match read path with
  | .error message => .error message
  | .ok bytes =>
      match Text.decode? bytes with
      | some text => .ok text
      | none => .error FileFault.notText.message

/-- The page of the template in a file. -/
def renderFile (options : PageOptions) (read : Reader) (path : String) : Compiling String :=
  match readText read path with
  | .error message => throw (.load ⟨.unreadable path message, ⟨some path, 0, 0⟩, none⟩)
  | .ok source => renderText options read (some path) source

end Offside
