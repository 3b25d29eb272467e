import Offside.Proofs.Brackets.Quoting

/-!
# Items of a list

A list of arguments or parameters is cut at its commas, except for those in literals. When items are
written with a comma and a space between them, cutting gives them back, provided that each of them
stands for itself. The names of parameters do, and so do literals.
-/

namespace Offside.Html

open Text

/-- Items with a comma and a space between them. -/
def joinItems (items : List (List Char)) : List Char :=
  [',', ' '].intercalate items

/-- A text that stands for itself in a list: a list is not cut inside of it, and no white space is
at its ends. -/
structure IsItem (item : List Char) : Prop where
  uncut : ∀ rest, cutAtCommas none (item ++ rest) = item.foldr consFirst (cutAtCommas none rest)
  bare : trim item = item
  solid : isBlank item = false

section

variable {item : List Char} {items : List (List Char)}

theorem foldr_consFirst (item line : List Char) (rest : List (List Char)) :
    item.foldr consFirst (line :: rest) = (item ++ line) :: rest := by
  induction item with
  | nil => rfl
  | cons character item ih => simp [ih, consFirst]

theorem cutAtCommas_joinItems (isItem : IsItem item) (areItems : ∀ other ∈ items, IsItem other) :
    cutAtCommas none (joinItems (item :: items)) = item :: items.map (' ' :: ·) := by
  induction items generalizing item with
  | nil =>
      have uncut := isItem.uncut []
      rw [List.append_nil] at uncut
      simp [joinItems, List.intercalate_singleton, uncut, cutAtCommas, foldr_consFirst]
  | cons next rest ih =>
      rcases List.forall_mem_cons.mp areItems with ⟨isNext, others⟩
      have following : cutAtCommas none (',' :: ' ' :: joinItems (next :: rest)) =
          [] :: (' ' :: next) :: rest.map (' ' :: ·) := by
        simp [cutAtCommas, ih isNext others, consFirst, isQuoteMark]
      calc cutAtCommas none (joinItems (item :: next :: rest))
          = cutAtCommas none (item ++ ',' :: ' ' :: joinItems (next :: rest)) := by
            simp [joinItems, List.intercalate_cons_cons]
        _ = item :: (next :: rest).map (' ' :: ·) := by
            rw [isItem.uncut, following, foldr_consFirst]
            simp

theorem mem_of_mem_joinItems {character : Char} (mem : character ∈ joinItems items) :
    character = ',' ∨ character = ' ' ∨ ∃ item ∈ items, character ∈ item := by
  induction items with
  | nil => simp [joinItems] at mem
  | cons item rest ih =>
      cases rest with
      | nil => exact .inr (.inr ⟨item, by simp, by simpa [joinItems] using mem⟩)
      | cons next rest =>
          have split : joinItems (item :: next :: rest) =
              item ++ ',' :: ' ' :: joinItems (next :: rest) := by
            simp [joinItems, List.intercalate_cons_cons]
          rw [split, List.mem_append, List.mem_cons, List.mem_cons] at mem
          rcases mem with mem | comma | space | mem
          · exact .inr (.inr ⟨item, by simp, mem⟩)
          · exact .inl comma
          · exact .inr (.inl space)
          · exact (ih mem).imp_right (.imp_right fun ⟨other, known, inside⟩ =>
              ⟨other, List.mem_cons_of_mem item known, inside⟩)

theorem trim_space (item : List Char) : trim (' ' :: item) = trim item := by
  have space : isWhitespace ' ' = true := by decide
  simp [trim, trimStart, space]

theorem isBlank_append (front back : List Char) :
    isBlank (front ++ back) = (isBlank front && isBlank back) := by
  simp [isBlank]

/-- Items that are joined are read back. -/
theorem listItems_joinItems (areItems : ∀ item ∈ items, IsItem item) :
    listItems (joinItems items) = items := by
  cases items with
  | nil => rfl
  | cons item rest =>
      rcases List.forall_mem_cons.mp areItems with ⟨isItem, others⟩
      have solid : isBlank (joinItems (item :: rest)) = false := by
        cases rest <;>
          simp [joinItems, List.intercalate_cons_cons, isBlank_append, isItem.solid]
      have bare : ∀ other ∈ rest, trim (' ' :: other) = other := by
        intro other mem
        rw [trim_space, (others other mem).bare]
      have restBare : rest.map (trim ∘ (' ' :: ·)) = rest :=
        (List.map_congr_left bare).trans (List.map_id rest)
      rw [listItems, solid, cutAtCommas_joinItems isItem others]
      simp [isItem.bare, restBare]

/-- Between two characters that are not white space nothing is trimmed. -/
theorem trim_eq_self {first : Char} {middle : List Char} (firstSolid : isWhitespace first = false)
    (lastSolid : ∀ last ∈ (first :: middle).getLast?, isWhitespace last = false) :
    trim (first :: middle) = first :: middle := by
  have start : trimStart (first :: middle) = first :: middle := by simp [trimStart, firstSolid]
  rw [trim, start, dropEndWhile]
  cases reversed : (first :: middle).reverse with
  | nil => simp at reversed
  | cons last others =>
      have solid := lastSolid last (by rw [← List.head?_reverse, reversed]; rfl)
      rw [List.dropWhile_cons_of_neg (by simp [solid]), ← reversed, List.reverse_reverse]

end

/-! ### Literals -/

section

variable {quote : Char}

theorem cutAtCommas_literalBody {body : List Char} (inside : Bracket.LiteralBody quote body)
    (noBackslash : quote ≠ '\\') (rest : List Char) :
    cutAtCommas (some quote) (body ++ quote :: rest) =
      (body ++ [quote]).foldr consFirst (cutAtCommas none rest) := by
  induction inside with
  | nil =>
      rw [List.nil_append, cutAtCommas, if_pos rfl]
      · rfl
      · simp [noBackslash]
  | escaped following ih => simp [cutAtCommas, ih]
  | @plain character others noBackslashHere noQuote following ih =>
      rw [List.cons_append, cutAtCommas, if_neg noQuote, ih]
      · rfl
      · simp [noBackslashHere]

theorem isItem_quoteText (isMark : isQuoteMark quote = true) (value : List Char) :
    IsItem (quoteText quote value) := by
  have solid : isWhitespace quote = false := by
    simp only [isQuoteMark, Bool.or_eq_true, beq_iff_eq] at isMark
    rcases isMark with rfl | rfl <;> decide
  have noComma : quote ≠ ',' := by
    rintro rfl
    simp [isQuoteMark] at isMark
  refine ⟨fun rest => ?_, ?_, ?_⟩
  · rw [quoteText_append, cutAtCommas, if_neg noComma, if_pos isMark,
      cutAtCommas_literalBody literalBody_escapeQuotes (ne_backslash_of_isQuoteMark isMark)]
    rfl
  · refine trim_eq_self solid fun last isLast => ?_
    rw [← List.cons_append, List.getLast?_concat] at isLast
    cases isLast
    exact solid
  · simp [isBlank, quoteText, solid]

end

/-! ### Names -/

/-- The code points of white space. -/
def whitespaceCodes : List Nat :=
  [9, 10, 11, 12, 13, 32, 0x85, 0xA0, 0x1680, 0x2000, 0x2001, 0x2002, 0x2003, 0x2004, 0x2005,
    0x2006, 0x2007, 0x2008, 0x2009, 0x200A, 0x2028, 0x2029, 0x202F, 0x205F, 0x3000]

theorem mem_whitespaceCodes {character : Char} (blank : isWhitespace character = true) :
    character.toNat ∈ whitespaceCodes := by
  simp only [isWhitespace, Bool.or_eq_true, Bool.and_eq_true, decide_eq_true_eq, beq_iff_eq]
    at blank
  simp only [whitespaceCodes, List.mem_cons, List.not_mem_nil, or_false]
  omega

theorem not_isAlphanumeric_of_isWhitespace {character : Char}
    (blank : isWhitespace character = true) : isAlphanumeric character = false := by
  have noLetters : ∀ code ∈ whitespaceCodes,
      (inRanges code alphabeticRanges || inRanges code numericRanges) = false := by
    decide +kernel
  exact noLetters _ (mem_whitespaceCodes blank)

end Offside.Html

namespace Offside.VariableName

open Text Html

variable (name : VariableName)

theorem exists_eq_cons : ∃ first rest, name.value.toList = first :: rest := by
  cases chars : name.value.toList with
  | nil => exact absurd name.valid (by simp [chars, isName])
  | cons first rest => exact ⟨first, rest, rfl⟩

theorem not_isWhitespace_of_mem {character : Char} (mem : character ∈ name.value.toList) :
    isWhitespace character = false := by
  rw [← Bool.not_eq_true]
  intro blank
  have noSign : character ∉ ['_', '$', '-'] := by
    intro known
    have signs : ['_', '$', '-'].all (! isWhitespace ·) = true := by decide
    simpa [blank] using List.all_eq_true.mp signs character known
  exact name.ne_of_mem mem (not_isAlphanumeric_of_isWhitespace blank) noSign rfl

theorem uncut {front : List Char} (inName : ∀ character ∈ front, character ∈ name.value.toList)
    (rest : List Char) :
    cutAtCommas none (front ++ rest) = front.foldr consFirst (cutAtCommas none rest) := by
  induction front with
  | nil => rfl
  | cons character others ih =>
      rcases List.forall_mem_cons.mp inName with ⟨mem, inOthers⟩
      have comma := name.ne_of_mem mem (by decide +kernel : isAlphanumeric ',' = false) (by decide)
      have single :=
        name.ne_of_mem mem (by decide +kernel : isAlphanumeric '\x27' = false) (by decide)
      have double :=
        name.ne_of_mem mem (by decide +kernel : isAlphanumeric '\x22' = false) (by decide)
      simp [cutAtCommas, comma, isQuoteMark, single, double, ih inOthers]

/-- The name of a parameter stands for itself in a list. -/
theorem isItem : IsItem name.value.toList := by
  refine ⟨name.uncut fun _ mem => mem, ?_, ?_⟩
  · rcases name.exists_eq_cons with ⟨first, rest, chars⟩
    rw [chars]
    refine trim_eq_self (name.not_isWhitespace_of_mem (by simp [chars])) fun last isLast => ?_
    exact name.not_isWhitespace_of_mem (by simpa [chars] using List.mem_of_getLast? isLast)
  · rcases name.exists_eq_cons with ⟨first, rest, chars⟩
    have solid := name.not_isWhitespace_of_mem (by simp [chars] : first ∈ name.value.toList)
    simp [isBlank, chars, solid]

end Offside.VariableName
