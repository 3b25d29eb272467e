import Offside.Text.Blank
import Offside.Token.Basic

/-!
# Documents

A document is a tree of nodes. There are three shapes of nodes: a leaf has no body, a branch has a
body of nodes, and a file node refers to another file, whose nodes it holds once they are loaded.
-/

namespace Offside

/-- An attribute of a tag, a call or a filter. -/
structure Attribute where
  span : Span
  name : String
  value : AttributeValue
  /-- Whether special characters of the value are still to be escaped. -/
  escaped : Bool
deriving DecidableEq

/-- What a tag is, apart from its body. -/
structure TagHead where
  name : String
  selfClosing : Bool
  /-- Whether the tag belongs to running text. -/
  inLine : Bool
  /-- Whether the body was given as a text block. -/
  textOnly : Bool
  attributes : List Attribute
deriving DecidableEq

/-- What a tag named by a variable is, apart from its body. -/
structure VariableTagHead where
  expression : String
  selfClosing : Bool
  textOnly : Bool
  attributes : List Attribute
deriving DecidableEq

/-- What a mixin's declaration or call is, apart from its body. -/
structure MixinHead where
  name : String
  /-- The text between the brackets, if there are any. -/
  arguments : Option String
  isCall : Bool
  attributes : List Attribute
deriving DecidableEq

/-- A filter that an included file goes through. -/
structure IncludeFilter where
  span : Span
  name : String
  attributes : List Attribute
deriving DecidableEq

/-- A reference to another file, and what is known of that file. -/
structure Reference where
  span : Span
  /-- The path as it is written. -/
  path : String
  /-- The path at which the file was read. -/
  fullPath : Option String := none
  /-- The text of the file. -/
  contents : Option String := none
  /-- The bytes of the file. -/
  bytes : Option (List UInt8) := none
  /-- Where the nodes of the file begin, once they are loaded. -/
  root : Option Span := none
deriving DecidableEq

/-- What a node without a body is. -/
inductive Leaf where
  /-- The place in a mixin's body where the block of the call goes. -/
  | mixinBlock
  /-- The place in an included file where the block of the include goes. -/
  | yieldSlot
  | text (value : String) (html : Bool)
  /-- A variable. -/
  | code (expression : String) (buffered escaped inLine : Bool)
  | comment (value : String) (buffered : Bool)
  | doctype (value : String)
  /-- A call without a block, or a declaration whose body is missing. -/
  | mixin (head : MixinHead)
deriving DecidableEq, Inhabited

/-- What a node with a body is. Where the body has a place of its own, it comes last. -/
inductive Label where
  | block
  | namedBlock (name : String) (mode : BlockMode)
  | tag (head : TagHead) (body : Span)
  | variableTag (head : VariableTagHead) (body : Span)
  | mixin (head : MixinHead) (body : Span)
  | blockComment (value : String) (buffered : Bool) (body : Span)
  | filter (name : String) (attributes : List Attribute) (body : Span)
deriving DecidableEq

/-- What another file is used for. -/
inductive FileUse where
  /-- The template builds on another one. -/
  | inheritance
  /-- Another template is put in this place; the body goes to where it yields. -/
  | inclusion (body : Span)
  /-- The text of a file is put in this place, after some filters. -/
  | raw (filters : List IncludeFilter)
deriving DecidableEq

/-- A node of a document. -/
inductive Node where
  | leaf (span : Span) (content : Leaf)
  | branch (span : Span) (label : Label) (children : List Node)
  /-- A reference to a file; `loaded` are that file's nodes, and only an inclusion has children. -/
  | file (span : Span) (use : FileUse) (reference : Reference) (loaded children : List Node)
deriving Inhabited

/-- A document: the place of its root, and its nodes. -/
structure Document where
  span : Span := {}
  nodes : List Node := []
deriving Inhabited

namespace Leaf

/-- The name of the kind of leaf. -/
def kind : Leaf → String
  | mixinBlock => "MixinBlock"
  | yieldSlot => "YieldBlock"
  | text .. => "Text"
  | code .. => "Code"
  | comment .. => "Comment"
  | doctype .. => "Doctype"
  | mixin .. => "Mixin"

end Leaf

namespace Label

/-- The name of the kind of branch. -/
def kind : Label → String
  | block => "Block"
  | namedBlock .. => "NamedBlock"
  | tag .. => "Tag"
  | variableTag .. => "InterpolatedTag"
  | mixin .. => "Mixin"
  | blockComment .. => "BlockComment"
  | filter .. => "Filter"

/-- Where the body is, for the labels that have a body with a place of its own. -/
def body? : Label → Option Span
  | tag _ body | variableTag _ body | mixin _ body | blockComment _ _ body | filter _ _ body =>
      some body
  | block | namedBlock .. => none

end Label

/-- The name of the kind of file node. -/
def FileUse.kind : FileUse → String
  | inheritance => "Extends"
  | inclusion .. => "Include"
  | raw .. => "RawInclude"

namespace Node

/-- The name of the kind of node. -/
def kind : Node → String
  | leaf _ content => content.kind
  | branch _ label _ => label.kind
  | file _ use _ _ _ => use.kind

/-- Where the node stands. -/
def span : Node → Span
  | leaf span _ | branch span _ _ | file span _ _ _ _ => span

/-- The nodes of the body, for a node that has one. -/
def children? : Node → Option (List Node)
  | leaf .. => none
  | branch _ _ children => some children
  | file _ (.inclusion _) _ _ children => some children
  | file .. => none

/-- Whether the node is text that is only white space. -/
def isBlankText : Node → Bool
  | leaf _ (.text value _) => Text.isBlank value.toList
  | _ => false

mutual

/-- The node and all nodes of bodies below it, in document order. -/
def walk : Node → List Node
  | leaf span content => [.leaf span content]
  | branch span label children => .branch span label children :: walkAll children
  | file span (.inclusion body) reference loaded children =>
      .file span (.inclusion body) reference loaded children :: walkAll children
  | file span use reference loaded children => [.file span use reference loaded children]

/-- The nodes of a list and all nodes of bodies below them, in document order. -/
def walkAll : List Node → List Node
  | [] => []
  | node :: rest => node.walk ++ walkAll rest

end

end Node

/-- All nodes of a document, in document order. -/
def Document.walk (document : Document) : List Node :=
  Node.walkAll document.nodes

/-- The names of the tags that belong to running text. -/
def inlineTags : List String :=
  ["a", "abbr", "acronym", "address", "audio", "b", "bdi", "bdo", "br", "cite", "code", "data",
    "dfn", "em", "i", "img", "kbd", "mark", "q", "rp", "rt", "ruby", "s", "samp", "small", "span",
    "strong", "sub", "sup", "time", "u", "var", "video", "wbr"]

end Offside
