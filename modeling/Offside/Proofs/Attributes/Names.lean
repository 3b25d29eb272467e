import Offside.Grammar.Fault
import Offside.Proofs.Conservation.Content

/-!
# Names of attributes

No two attributes of a tag have the same name, unless they are classes. In the tokens of a template
a name is repeated where it has been given before in the head of the same tag: behind the name of
the tag, or behind the id or the class that a tag `div` begins with.
-/

namespace Offside

/-! ### Attributes with different names -/

namespace Attribute

/-- Attributes of one name are classes. -/
def Distinct (attributes : List Attribute) : Prop :=
  attributes.Pairwise fun first second => first.name = second.name → first.name = "class"

/-- The attributes are distinct, and the names of all that are no classes are noted. -/
structure Noted (names : List String) (attributes : List Attribute) : Prop where
  distinct : Distinct attributes
  names : ∀ entry ∈ attributes, entry.name ≠ "class" → entry.name ∈ names

variable {names more : List String} {attributes : List Attribute} {entry : Attribute}

theorem noted_nil : Noted names [] :=
  ⟨.nil, by simp⟩

/-- One more attribute, whose name is noted then, unless it is a class. -/
theorem Noted.concat (noted : Noted names attributes) (within : names ⊆ more)
    (other : entry.name ∈ names → entry.name = "class")
    (added : entry.name ≠ "class" → entry.name ∈ more) : Noted more (attributes ++ [entry]) := by
  constructor
  · refine List.pairwise_append.mpr ⟨noted.distinct, List.pairwise_singleton _ _, ?_⟩
    intro earlier found last isLast same
    rw [List.mem_singleton.mp isLast] at same
    rcases Decidable.em (earlier.name = "class") with isClass | noClass
    · exact isClass
    · have known := noted.names earlier found noClass
      exact same.trans (other (same ▸ known))
  · intro found member noClass
    rcases List.mem_append.mp member with earlier | last
    · exact within (noted.names found earlier noClass)
    · rw [List.mem_singleton.mp last] at noClass ⊢
      exact added noClass

end Attribute

/-- The attributes of a tag or of a call are distinct; those of a filter need not be. -/
def Label.Distinct : Label → Prop
  | tag head _ => Attribute.Distinct head.attributes
  | variableTag head _ => Attribute.Distinct head.attributes
  | mixin head _ => Attribute.Distinct head.attributes
  | block | namedBlock .. | blockComment .. | filter .. => True

/-- The attributes of a call without a block are distinct. -/
def Leaf.Distinct : Leaf → Prop
  | mixin head => Attribute.Distinct head.attributes
  | mixinBlock | yieldSlot | text .. | code .. | comment .. | doctype .. => True

/-- If the node is a tag, a tag named by a variable, or a call, then its attributes are distinct. -/
def Node.Distinct : Node → Prop
  | leaf _ content => content.Distinct
  | branch _ label _ => label.Distinct
  | file .. => True

/-! ### Names that are repeated -/

namespace TokenKind

/-- The name of the attribute that a token gives to its tag. -/
def attributeName? : TokenKind → Option String
  | id _ => some "id"
  | className _ => some "class"
  | attributeEntry name _ => some name
  | _ => none

/-- Whether a tag or a call may begin with a token. A tag `div` may begin with an id or a class. -/
def beginsTag : TokenKind → Bool
  | tag _ | interpolation _ | call .. | id _ | className _ => true
  | _ => false

end TokenKind

/-- The tokens belong to the head of one tag: it begins with the first one, and the others are ids,
classes and lists of attributes. -/
structure IsTagHead (tokens : List Token) : Prop where
  begins : ∀ first ∈ tokens.head?, first.kind.beginsTag
  parts : ∀ token ∈ tokens.tail, token.kind.isHead

theorem isTagHead_single {token : Token} (begins : token.kind.beginsTag) : IsTagHead [token] :=
  ⟨by simpa using begins, by simp⟩

/-- One more token of the head. -/
theorem IsTagHead.concat {tokens : List Token} {token : Token} (head : IsTagHead tokens)
    (begins : tokens = [] → token.kind.beginsTag) (part : token.kind.isHead) :
    IsTagHead (tokens ++ [token]) := by
  cases tokens with
  | nil => exact isTagHead_single (begins rfl)
  | cons first rest =>
      refine ⟨head.begins, fun other found => ?_⟩
      rcases List.mem_append.mp found with earlier | last
      · exact head.parts other earlier
      · rwa [List.mem_singleton.mp last]

/-- Among the tokens of a template this one gives an attribute to its tag, and an earlier token of
the head of the same tag gives one of the same name. -/
structure Token.Repeats (token : Token) (name : String) (tokens : List Token) : Prop where
  gives : token.kind.attributeName? = some name
  again : ∃ before head after, tokens = before ++ head ++ token :: after ∧ IsTagHead head ∧
    ∃ earlier ∈ head, earlier.kind.attributeName? = some name

/-- The name that is given a second time, if that is the cause of a fault. -/
def ParseFault.repeatedName? : ParseFault → Option String
  | duplicateId => some "id"
  | duplicateAttribute name => some name
  | _ => none

/-- If the fault is about a repeated name, then it stands at a token that repeats this name, which
is not that of a class. -/
def Diagnostic.NamesRepetition (fault : Diagnostic ParseFault) (tokens : List Token)
    (file : Option String) : Prop :=
  ∀ name ∈ fault.cause.repeatedName?, name ≠ "class" ∧
    ∃ token : Token, token.Repeats name tokens ∧
      fault.span = { token.span with file := file <|> token.span.file }

end Offside
