import Offside.Grammar.Expression
import Offside.Html.Render
import Offside.Text.Line
import Offside.Text.Word
import Offside.Token.Scanner

/-!
# Elements and their layouts

The plainest templates are forests of elements, one on each line, where indentation shows which
elements are inside which. An element has a name, perhaps a text on its line, and other elements in
it. A forest can be laid out in many ways: each list of elements may be indented as deep as one
likes, and blank lines may stand anywhere behind an element.
-/

namespace Offside

/-- The words that mean something else than an element when they begin a line. -/
def reservedWords : List String :=
  ["yield", "doctype", "default", "extends", "extend", "append", "prepend", "block", "include",
    "mixin"]

/-- The name of an element that can have content. -/
structure ElementName where
  value : String
  /-- Letters, digits and underscores, with no digit in front. -/
  word : ∃ first rest, value.toList = first :: rest ∧ (first.isAlpha ∨ first = '_') ∧
    ∀ character ∈ rest, Text.isWord character
  notVoid : value ∉ Html.voidElements
  notReserved : value ∉ reservedWords

namespace ElementName

variable (name : ElementName)

theorem isWord_of_mem {character : Char} (mem : character ∈ name.value.toList) :
    Text.isWord character = true := by
  rcases name.word with ⟨first, rest, chars, opening, others⟩
  rw [chars] at mem
  rcases List.mem_cons.mp mem with rfl | mem
  · rcases opening with alpha | rfl
    · simp [Text.isWord, Char.isAlphanum, alpha]
    · decide
  · exact others character mem

theorem exists_eq_cons : ∃ first rest, name.value.toList = first :: rest := by
  rcases name.word with ⟨first, rest, chars, _⟩
  exact ⟨first, rest, chars⟩

end ElementName

/-- A text on the line of an element, without interpolation. -/
structure ElementText where
  value : String
  nonempty : value ≠ ""
  oneLine : '\n' ∉ value.toList
  noReturn : '\r' ∉ value.toList
  plain : ∀ marker ∈ [['#', '['], ['#', '\x7b'], ['!', '\x7b']], ¬marker <:+: value.toList

/-- An element: its name, the text on its line, and the elements in it. -/
inductive Element where
  | mk (name : ElementName) (text : Option ElementText) (children : List Element)

namespace Element

/-- The text on the line of an element, which may be missing. -/
def textValue (text : Option ElementText) : String :=
  (text.map ElementText.value).getD ""

mutual

/-- The element as it is written in a page. -/
def html : Element → String
  | mk name text children =>
      "<" ++ name.value ++ ">" ++ textValue text ++ htmlAll children ++ "</" ++ name.value ++ ">"

/-- Some elements as they are written in a page. -/
def htmlAll : List Element → String
  | [] => ""
  | element :: rest => element.html ++ htmlAll rest

end

/-- The line of an element, without its indentation. -/
def line (name : ElementName) : Option ElementText → List Char
  | none => name.value.toList
  | some text => name.value.toList ++ ' ' :: text.value.toList

end Element

/-- A line that is only spaces and tabs. -/
def IsBlankLine (line : List Char) : Prop :=
  ∀ character ∈ line, Text.isIndentation character

/-- The lines of some elements that are all indented to one width. The elements in one of them are
indented deeper, and blank lines may follow each element's line. -/
inductive Layout (unit : IndentUnit) : (width : Nat) → List Element → List (List Char) → Prop where
  | nil {width : Nat} : Layout unit width [] []
  | cons {width step : Nat} {name : ElementName} {text : Option ElementText}
      {children rest : List Element} {blank inside after : List (List Char)}
      (deeper : 0 < step) (blankLines : ∀ line ∈ blank, IsBlankLine line)
      (layoutInside : Layout unit (width + step) children inside)
      (layoutAfter : Layout unit width rest after) :
      Layout unit width (.mk name text children :: rest)
        ((List.replicate width unit.character ++ Element.line name text) ::
          (blank ++ inside ++ after))

/-- Every forest can be laid out. -/
theorem exists_layout (unit : IndentUnit) : ∀ (width : Nat) (forest : List Element),
    ∃ lines, Layout unit width forest lines
  | _, [] => ⟨[], .nil⟩
  | width, .mk _ _ children :: rest => by
      rcases exists_layout unit (width + 1) children with ⟨inside, layoutInside⟩
      rcases exists_layout unit width rest with ⟨after, layoutAfter⟩
      have noBlank : ∀ line ∈ [], IsBlankLine line := by simp
      exact ⟨_, .cons Nat.one_pos noBlank layoutInside layoutAfter⟩

/-- A source is written in some lines: each of them ends in a newline, which may be missing behind
the last line of the source unless that line is blank. -/
def WrittenIn (source : String) (lines : List (List Char)) : Prop :=
  source.toList = lines.flatMap (· ++ ['\n']) ∨
    source.toList ++ ['\n'] = lines.flatMap (· ++ ['\n']) ∧
      ∀ line ∈ lines.getLast?, ¬IsBlankLine line

/-! ### Includes among elements -/

/-- The path of a template, as it stands behind the keyword on the line of an include. -/
structure TemplatePath where
  value : String
  oneLine : '\n' ∉ value.toList
  noReturn : '\r' ∉ value.toList
  bare : trimmed value = value
  isTemplate : Grammar.isTemplatePath value = true

/-- An entry of a template: an element with the entries in it, or an include with the entries of
the file. -/
inductive Entry where
  | element (name : ElementName) (text : Option ElementText) (children : List Entry)
  | inclusion (path : TemplatePath) (included : List Entry)

/-- The line of an include, without its indentation. -/
def TemplatePath.line (path : TemplatePath) : List Char :=
  "include".toList ++ ' ' :: path.value.toList

namespace Entry

/-- The line of an entry, without its indentation. -/
def line : Entry → List Char
  | element name text _ => Element.line name text
  | inclusion path _ => path.line

/-- The entries that are written below the line of an entry. Those of an included file are not. -/
def children : Entry → List Entry
  | element _ _ children => children
  | inclusion .. => []

mutual

/-- The elements that an entry stands for, each include being replaced by what it includes. -/
def expand : Entry → List Element
  | element name text children => [.mk name text (expandAll children)]
  | inclusion _ included => expandAll included

/-- The elements that some entries stand for. -/
def expandAll : List Entry → List Element
  | [] => []
  | entry :: rest => entry.expand ++ expandAll rest

end

/-- The lines of some entries, laid out like those of elements. -/
inductive Layout (unit : IndentUnit) : (width : Nat) → List Entry → List (List Char) → Prop where
  | nil {width : Nat} : Layout unit width [] []
  | cons {width step : Nat} {entry : Entry} {rest : List Entry}
      {blank inside after : List (List Char)} (deeper : 0 < step)
      (blankLines : ∀ line ∈ blank, IsBlankLine line)
      (layoutInside : Layout unit (width + step) entry.children inside)
      (layoutAfter : Layout unit width rest after) :
      Layout unit width (entry :: rest)
        ((List.replicate width unit.character ++ entry.line) :: (blank ++ inside ++ after))

end Entry

namespace Element

mutual

/-- An element as an entry of a template without includes. -/
def entry : Element → Entry
  | mk name text children => .element name text (entries children)

/-- Some elements as the entries of a template without includes. -/
def entries : List Element → List Entry
  | [] => []
  | element :: rest => element.entry :: entries rest

end

end Element

/-- A forest is laid out as the entries of a template without includes. -/
theorem Layout.entries {unit : IndentUnit} {width : Nat} {forest : List Element}
    {lines : List (List Char)} (layout : Layout unit width forest lines) :
    Entry.Layout unit width (Element.entries forest) lines := by
  induction layout with
  | nil => exact .nil
  | cons deeper blankLines _ _ insideLaidOut followingLaidOut =>
      exact .cons deeper blankLines insideLaidOut followingLaidOut

end Offside
