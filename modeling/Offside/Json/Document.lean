import Offside.Document.Basic
import Offside.Json.Token

/-!
# Documents as JSON

A node is written with its type, where it stands, and what it holds. A body is an object of its
own, without a type.
-/

namespace Offside

/-- An attribute as an object. -/
def Attribute.toJson (entry : Attribute) : Json :=
  .object (entry.span.fields ++
    [("name", .string entry.name), ("val", entry.value.toJson),
      ("mustEscape", .bool entry.escaped)])

/-- A list of attributes. -/
def attributesToJson (attributes : List Attribute) : Json :=
  .array (attributes.map Attribute.toJson)

/-- A filter of an included file as an object. -/
def IncludeFilter.toJson (filter : IncludeFilter) : Json :=
  .object (filter.span.fields ++
    [("name", .string filter.name), ("attrs", attributesToJson filter.attributes)])

/-- An object for a body: where it stands, and its nodes. -/
def bodyToJson (span : Span) (nodes : List Json) : Json :=
  .object (span.fields ++ [("nodes", .array nodes)])

/-- The fields of a mixin, whose body is given as written. -/
def MixinHead.fields (head : MixinHead) (body : Json) : List (String × Json) :=
  [("name", .string head.name), ("args", Json.ofString? head.arguments), ("block", body),
    ("call", .bool head.isCall), ("attrs", attributesToJson head.attributes)]

/-- The fields of a leaf. -/
def Leaf.fields : Leaf → List (String × Json)
  | mixinBlock | yieldSlot => []
  | text value html => [("val", .string value), ("isHtml", .bool html)]
  | code expression buffered escaped inLine =>
      [("val", .string expression), ("buffer", .bool buffered), ("mustEscape", .bool escaped),
        ("isInline", .bool inLine)]
  | comment value buffered => [("val", .string value), ("buffer", .bool buffered)]
  | doctype value => [("val", .string value)]
  | mixin head => head.fields .null

/-- The fields of a branch, whose nodes are given as written. -/
def Label.fields (nodes : List Json) : Label → List (String × Json)
  | block => [("nodes", .array nodes)]
  | namedBlock name mode =>
      [("name", .string name), ("mode", .string mode.name), ("nodes", .array nodes)]
  | tag head body =>
      [("name", .string head.name), ("selfClosing", .bool head.selfClosing),
        ("isInline", .bool head.inLine), ("textOnly", .bool head.textOnly),
        ("attrs", attributesToJson head.attributes), ("block", bodyToJson body nodes)]
  | variableTag head body =>
      [("expr", .string head.expression), ("selfClosing", .bool head.selfClosing),
        ("textOnly", .bool head.textOnly), ("attrs", attributesToJson head.attributes),
        ("block", bodyToJson body nodes)]
  | mixin head body => head.fields (bodyToJson body nodes)
  | blockComment value buffered body =>
      [("val", .string value), ("buffer", .bool buffered), ("block", bodyToJson body nodes)]
  | filter name attributes body =>
      [("name", .string name), ("attrs", attributesToJson attributes),
        ("block", bodyToJson body nodes)]

/-- A reference as an object, with the loaded nodes given as written. -/
def Reference.toJson (reference : Reference) (loaded : List Json) : Json :=
  let optional (name : String) : Option Json → List (String × Json)
    | some value => [(name, value)]
    | none => []
  .object (reference.span.fields ++ [("path", .string reference.path)] ++
    optional "fullPath" (reference.fullPath.map .string) ++
    optional "str" (reference.contents.map .string) ++
    optional "ast" (reference.root.map (bodyToJson · loaded)))

/-- The fields of a file node after its reference. -/
def FileUse.fields (children : List Json) : FileUse → List (String × Json)
  | inheritance => []
  | inclusion body => [("block", bodyToJson body children)]
  | raw filters => [("filters", .array (filters.map IncludeFilter.toJson))]

namespace Node

mutual

/-- A node as an object. -/
def toJson : Node → Json
  | leaf span content =>
      .object (("type", .string content.kind) :: span.fields ++ content.fields)
  | branch span label children =>
      .object (("type", .string label.kind) :: span.fields ++ label.fields (allToJson children))
  | file span use reference loaded children =>
      .object (("type", .string use.kind) :: span.fields ++
        ("file", reference.toJson (allToJson loaded)) :: use.fields (allToJson children))

/-- The nodes of a list as objects. -/
def allToJson : List Node → List Json
  | [] => []
  | node :: rest => node.toJson :: allToJson rest

end

end Node

/-- A document as an object. -/
def Document.toJson (document : Document) : Json :=
  bodyToJson document.span (Node.allToJson document.nodes)

end Offside
