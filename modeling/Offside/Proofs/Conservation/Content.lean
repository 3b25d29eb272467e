import Offside.Document.Basic
import Offside.Text.Blank
import Offside.Text.Line

/-!
# The content of tokens and of nodes

Some tokens say what a template contains, and others only how it is laid out. The nodes of a
document stand for tokens of the first kind, in document order. Three things are written in more
than one way: a tag `div` may be left out in front of an id or a class, lines that are copied to the
page may be joined into one text, and newlines in a text become texts of their own.
-/

namespace Offside

open Text

/-- What a text contains; a lone newline only stands between two lines. -/
def textContent (value : String) : List TokenKind :=
  if value = "\n" then [] else [.text value]

/-- What a text contains that is copied to the page: each of its lines. -/
def htmlContent (value : String) : List TokenKind :=
  (lines value.toList).map fun line => .html (String.ofList line)

namespace TokenKind

/-- Whether a token belongs to the head of a tag, behind the tag's name. -/
def isHead : TokenKind → Bool
  | id _ | className _ | startAttributes | attributeEntry .. | endAttributes => true
  | _ => false

/-- What a token contains, in the head of a tag or elsewhere. -/
def content (inHead : Bool) : TokenKind → List TokenKind
  | id _ | className _ => if inHead then [] else [.tag "div"]
  | text value => textContent value
  | html value => htmlContent value
  | namedBlock name mode => [.namedBlock (trimmed name) mode]
  | path value => [.path (trimmed value)]
  | tag name => [.tag name]
  | interpolation expression => [.interpolation expression]
  | call name arguments => [.call name arguments]
  | mixin name arguments => [.mixin name arguments]
  | filter name => [.filter name]
  | comment value buffered => [.comment value buffered]
  | doctype value => [.doctype value]
  | code expression buffered escaped => [.code expression buffered escaped]
  | inclusion => [.inclusion]
  | inheritance => [.inheritance]
  | mixinBlock => [.mixinBlock]
  | yieldSlot => [.yieldSlot]
  | _ => []

/-- Whether the head of a tag goes on behind a token. -/
def headBehind (inHead : Bool) : TokenKind → Bool
  | tag _ | interpolation _ | call .. | id _ | className _ => true
  | startAttributes | attributeEntry .. | endAttributes => inHead
  | _ => false

/-- What some tokens contain, of which the first may stand in the head of a tag. -/
def contentOf : (inHead : Bool) → List TokenKind → List TokenKind
  | _, [] => []
  | inHead, kind :: rest => kind.content inHead ++ contentOf (kind.headBehind inHead) rest

/-- Whether the head of a tag goes on behind some tokens. -/
def headBehindAll : (inHead : Bool) → List TokenKind → Bool
  | inHead, [] => inHead
  | inHead, kind :: rest => headBehindAll (kind.headBehind inHead) rest

variable {inHead : Bool} {kind : TokenKind} {rest first second : List TokenKind}

theorem contentOf_append :
    contentOf inHead (first ++ second) =
      contentOf inHead first ++ contentOf (headBehindAll inHead first) second := by
  induction first generalizing inHead with
  | nil => rfl
  | cons kind rest ih => simp [contentOf, headBehindAll, ih]

theorem headBehindAll_append :
    headBehindAll inHead (first ++ second) = headBehindAll (headBehindAll inHead first) second := by
  induction first generalizing inHead with
  | nil => rfl
  | cons kind rest ih => simp [headBehindAll, ih]

/-- A token that cannot stand in the head of a tag contains the same everywhere. -/
theorem content_eq_of_not_isHead (other : kind.isHead = false) (inHead : Bool) :
    kind.content inHead = kind.content false := by
  cases kind <;> first | rfl | cases other

theorem headBehind_eq_of_not_isHead (other : kind.isHead = false) (inHead : Bool) :
    kind.headBehind inHead = kind.headBehind false := by
  cases kind <;> first | rfl | cases other

theorem contentOf_eq_of_not_isHead (other : kind.isHead = false) (inHead : Bool) :
    contentOf inHead (kind :: rest) = contentOf false (kind :: rest) := by
  simp only [contentOf, content_eq_of_not_isHead other inHead,
    headBehind_eq_of_not_isHead other inHead]

theorem headBehindAll_eq_of_not_isHead (other : kind.isHead = false) (inHead : Bool) :
    headBehindAll inHead (kind :: rest) = headBehindAll false (kind :: rest) := by
  simp only [headBehindAll, headBehind_eq_of_not_isHead other inHead]

end TokenKind

/-! ### Lines that are copied to the page -/

namespace Text

theorem lines_append_newline (first second : List Char) :
    lines (first ++ '\n' :: second) = lines first ++ lines second := by
  induction first with
  | nil => simp [lines]
  | cons character rest ih =>
      simp only [List.cons_append, lines, ih]
      split
      · rfl
      · cases split : lines rest with
        | nil => exact absurd split (lines_ne_nil rest)
        | cons line others => rfl

end Text

theorem htmlContent_join (first second : String) :
    htmlContent (first ++ "\n" ++ second) = htmlContent first ++ htmlContent second := by
  simp [htmlContent, lines_append_newline]

/-! ### Nodes -/

/-- What a declaration or a call contains, apart from its body. -/
def MixinHead.content (head : MixinHead) : List TokenKind :=
  if head.isCall then [.call head.name head.arguments] else [.mixin head.name head.arguments]

/-- What a node without a body contains. -/
def Leaf.content : Leaf → List TokenKind
  | mixinBlock => [.mixinBlock]
  | yieldSlot => [.yieldSlot]
  | text value html => if html then htmlContent value else textContent value
  | code expression buffered escaped _ => [.code expression buffered escaped]
  | comment value buffered => [.comment value buffered]
  | doctype value => [.doctype value]
  | mixin head => head.content

/-- What a node contains apart from its body. -/
def Label.content : Label → List TokenKind
  | block => []
  | namedBlock name mode => [.namedBlock name mode]
  | tag head _ => [.tag head.name]
  | variableTag head _ => [.interpolation head.expression]
  | mixin head _ => head.content
  | blockComment value buffered _ => [.comment value buffered]
  | filter name _ _ => [.filter name]

/-- What a reference to a file contains. -/
def FileUse.content (path : String) : FileUse → List TokenKind
  | inheritance => [.inheritance, .path path]
  | inclusion _ => [.inclusion, .path path]
  | raw filters => .inclusion :: filters.map (fun found => .filter found.name) ++ [.path path]

namespace Node

mutual

/-- What a node contains, in document order. -/
def content : Node → List TokenKind
  | leaf _ found => found.content
  | branch _ label children => label.content ++ contentAll children
  | file _ use reference _ children => use.content reference.path ++ contentAll children

/-- What some nodes contain, in document order. -/
def contentAll : List Node → List TokenKind
  | [] => []
  | node :: rest => node.content ++ contentAll rest

end

@[simp] theorem contentAll_nil : contentAll [] = [] := by
  rw [contentAll]

@[simp] theorem contentAll_cons (node : Node) (rest : List Node) :
    contentAll (node :: rest) = node.content ++ contentAll rest := by
  rw [contentAll]

@[simp] theorem contentAll_append (first second : List Node) :
    contentAll (first ++ second) = contentAll first ++ contentAll second := by
  induction first with
  | nil => simp
  | cons node rest ih => simp [ih]

@[simp] theorem content_leaf (span : Span) (found : Leaf) :
    (leaf span found).content = found.content := by
  rw [content]

@[simp] theorem content_branch (span : Span) (label : Label) (children : List Node) :
    (branch span label children).content = label.content ++ contentAll children := by
  rw [content]

@[simp] theorem content_file (span : Span) (use : FileUse) (reference : Reference)
    (loaded children : List Node) :
    (file span use reference loaded children).content =
      use.content reference.path ++ contentAll children := by
  rw [content]

end Node

end Offside
