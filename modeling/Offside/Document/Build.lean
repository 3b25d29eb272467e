import Offside.Document.Basic

/-!
# Building documents

Documents can be put together by hand. What is built has no place in any file.
-/

namespace Offside.Build

/-- An attribute whose value is escaped. -/
def escapedAttribute (name : String) (value : AttributeValue) : Attribute :=
  ⟨{}, name, value, true⟩

/-- A class. -/
def cssClass (name : String) : Attribute :=
  ⟨{}, "class", .text name, false⟩

/-- A text. -/
def text (value : String) : Node :=
  .leaf {} (.text value false)

/-- The value of a variable. -/
def showVariable (name : String) (escaped : Bool) : Node :=
  .leaf {} (.code name true escaped true)

/-- A comment in one line. -/
def comment (value : String) (buffered : Bool) : Node :=
  .leaf {} (.comment value buffered)

/-- A tag. -/
def tag (name : String) (attributes : List Attribute) (selfClosing : Bool)
    (children : List Node) : Node :=
  .branch {} (.tag ⟨name, selfClosing, inlineTags.contains name, false, attributes⟩ {}) children

/-- A tag named by a variable. -/
def variableTag (expression : String) (children : List Node) : Node :=
  .branch {} (.variableTag ⟨expression, false, false, []⟩ {}) children

/-- A filter over a text. -/
def filter (name body : String) (attributes : List Attribute) : Node :=
  .branch {} (.filter name attributes {}) [text body]

/-- The declaration of a mixin. -/
def declaration (name : String) (parameters : Option String) (children : List Node) : Node :=
  .branch {} (.mixin ⟨name, parameters, false, []⟩ {}) children

/-- A call of a mixin, which may be given a block. -/
def call (name : String) (arguments : Option String) : (block : Option (List Node)) → Node
  | some children => .branch {} (.mixin ⟨name, arguments, true, []⟩ {}) children
  | none => .leaf {} (.mixin ⟨name, arguments, true, []⟩)

/-- The place for the block of a call. -/
def mixinBlock : Node :=
  .leaf {} .mixinBlock

/-- A named block. -/
def namedBlock (name : String) (mode : BlockMode) (children : List Node) : Node :=
  .branch {} (.namedBlock name mode) children

/-- Some nodes as one. -/
def block (children : List Node) : Node :=
  .branch {} .block children

end Offside.Build
