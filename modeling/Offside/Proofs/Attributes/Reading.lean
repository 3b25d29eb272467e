import Mathlib.Data.List.DropRight
import Offside.Proofs.Brackets.Quoting

/-!
# Reading attribute lists

The entries of a list are printed with single spaces between them, each value in double quotes. What
is printed is balanced, and reading it gives the entries in order.
-/

namespace Offside

open Text

/-- An entry of an attribute list that can be printed: the name has no character that would end it,
and none that counts for the brackets around the list. -/
structure AttributeEntry where
  name : String
  value : AttributeValue
  nonempty : name ≠ ""
  allowed : ∀ character ∈ name.toList, isAttributeNameCharacter character = true
  noBracket : ∀ character ∈ name.toList,
    character ∉ ['(', ')', '[', ']', '\x7b', '\x7d', '\x60']
  noReturn : ∀ text, value = .text text → '\r' ∉ text.toList

namespace AttributeEntry

/-- What stands behind the name of an entry. -/
def printValue : AttributeValue → List Char
  | .present => []
  | .text value => '=' :: quoteText '\x22' value.toList

/-- An entry as it is written. -/
def print (entry : AttributeEntry) : List Char :=
  entry.name.toList ++ printValue entry.value

/-- Entries with a space in front of each. -/
def printRest (entries : List AttributeEntry) : List Char :=
  entries.flatMap fun entry => ' ' :: entry.print

/-- Entries with single spaces between them. -/
def printAll : List AttributeEntry → List Char
  | [] => []
  | entry :: rest => entry.print ++ printRest rest

/-- The token of an entry. -/
def kind (entry : AttributeEntry) : TokenKind :=
  .attributeEntry entry.name entry.value

/-! ### The characters of a name -/

section

variable (entry : AttributeEntry)

theorem exists_eq_cons : ∃ first rest, entry.name.toList = first :: rest :=
  List.exists_cons_of_ne_nil (mt String.toList_eq_nil_iff.mp entry.nonempty)

variable {character : Char} (mem : character ∈ entry.name.toList)

include mem

theorem ne_of_mem {other : Char} (unfit : isAttributeNameCharacter other = false) :
    character ≠ other := by
  rintro rfl
  simp [entry.allowed character mem] at unfit

theorem isPlain_of_mem : Bracket.isPlain character = true := by
  have noBracket := entry.noBracket character mem
  have single := entry.ne_of_mem mem (by decide : isAttributeNameCharacter '\x27' = false)
  have double := entry.ne_of_mem mem (by decide : isAttributeNameCharacter '\x22' = false)
  have slash := entry.ne_of_mem mem (by decide : isAttributeNameCharacter '/' = false)
  simp only [List.mem_cons, List.not_mem_nil, or_false, not_or] at noBracket
  simp [Bracket.isPlain, Bracket.isQuote, Bracket.closing, Bracket.isClosing, noBracket, single,
    double, slash]

theorem not_isQuoteMark_of_mem : isQuoteMark character = false := by
  have single := entry.ne_of_mem mem (by decide : isAttributeNameCharacter '\x27' = false)
  have double := entry.ne_of_mem mem (by decide : isAttributeNameCharacter '\x22' = false)
  simp [isQuoteMark, single, double]

theorem not_isSeparator_of_mem : isSeparator character = false := by
  have space := entry.ne_of_mem mem (by decide : isAttributeNameCharacter ' ' = false)
  have newline := entry.ne_of_mem mem (by decide : isAttributeNameCharacter '\n' = false)
  have tab := entry.ne_of_mem mem (by decide : isAttributeNameCharacter '\t' = false)
  simp [isSeparator, space, newline, tab]

theorem ne_equals_of_mem : character ≠ '=' :=
  entry.ne_of_mem mem (by decide)

end

/-! ### What is printed -/

section

variable {rest : List Char}

theorem isQuoteMark_double : isQuoteMark '\x22' = true := rfl

theorem balanced_print_append (entry : AttributeEntry) (following : Bracket.Balanced rest) :
    Bracket.Balanced (entry.print ++ rest) := by
  rw [print, List.append_assoc]
  refine .plain ?_ _ fun _ => entry.isPlain_of_mem
  cases entry.value with
  | present => exact following
  | text value =>
      exact (following.quoteText isQuoteMark_double value.toList).plain ['=']
        (List.all_eq_true.mp (by decide))

theorem balanced_printRest (entries : List AttributeEntry) :
    Bracket.Balanced (printRest entries) := by
  induction entries with
  | nil => exact .nil
  | cons entry rest ih =>
      exact (balanced_print_append entry ih).plain [' '] (List.all_eq_true.mp (by decide))

theorem balanced_printAll (entries : List AttributeEntry) :
    Bracket.Balanced (printAll entries) := by
  cases entries with
  | nil => exact .nil
  | cons entry rest => exact balanced_print_append entry (balanced_printRest rest)

theorem noReturn_print (entry : AttributeEntry) : '\r' ∉ entry.print := by
  have noName : '\r' ∉ entry.name.toList := fun mem => entry.ne_of_mem mem (by decide) rfl
  cases isValue : entry.value with
  | present => simp [print, isValue, printValue, noName]
  | text value =>
      have noValue := entry.noReturn value isValue
      have noQuoted : '\r' ∉ quoteText '\x22' value.toList := by
        intro mem
        rcases mem_of_mem_quoteText mem with same | same | mem
        · cases same
        · cases same
        · exact noValue mem
      simp [print, isValue, printValue, noName, noQuoted]

theorem noReturn_printAll (entries : List AttributeEntry) : '\r' ∉ printAll entries := by
  cases entries <;> simp [printAll, printRest, noReturn_print]

theorem length_le_length_printRest (entries : List AttributeEntry) :
    entries.length ≤ (printRest entries).length := by
  induction entries with
  | nil => rfl
  | cons entry rest ih =>
      simp only [printRest, List.flatMap_cons, List.length_append, List.length_cons] at ih ⊢
      omega

theorem length_le_length_printAll (entries : List AttributeEntry) :
    entries.length ≤ (printAll entries).length + 1 := by
  cases entries with
  | nil => simp
  | cons entry rest =>
      have others := length_le_length_printRest rest
      simp only [printAll, List.length_cons, List.length_append]
      omega

end

end AttributeEntry

/-! ### Reading one entry -/

namespace AttributeCursor

/-- No blanks are skipped in front of something else. -/
theorem skip_eq {rest : List Char} (position : Position)
    (noBlank : ∀ first ∈ rest.head?, isSeparator first = false) :
    ∃ stop, skip ⟨rest, position⟩ = ⟨rest, stop⟩ := by
  refine ⟨_, congrArg (AttributeCursor.mk · _) ?_⟩
  cases rest with
  | nil => rfl
  | cons first others => simp [noBlank first rfl]

end AttributeCursor

section

variable {entry : AttributeEntry} {rest : List Char}

theorem exists_readName_eq (entry : AttributeEntry) (position : Position)
    (ends : ∀ first ∈ rest.head?, isSeparator first = true ∨ first = '=') :
    ∃ stop, readName ⟨entry.name.toList ++ rest, position⟩ =
      (none, entry.name.toList, ⟨rest, stop⟩) := by
  have inName : ∀ character ∈ entry.name.toList,
      (!(isSeparator character || character == '=')) = true := by
    intro character mem
    simp [entry.not_isSeparator_of_mem mem, entry.ne_equals_of_mem mem]
  have taken : (entry.name.toList ++ rest).takeWhile
      (fun character => !(isSeparator character || character == '=')) = entry.name.toList := by
    rw [List.takeWhile_append_of_pos inName]
    cases rest with
    | nil => simp
    | cons first others => rcases ends first rfl with blank | rfl <;> simp [*]
  have dropped : (entry.name.toList ++ rest).dropWhile
      (fun character => !(isSeparator character || character == '=')) = rest := by
    rw [List.dropWhile_append_of_pos inName]
    cases rest with
    | nil => rfl
    | cons first others => rcases ends first rfl with blank | rfl <;> simp [*]
  rcases entry.exists_eq_cons with ⟨first, others, chars⟩
  have mem : first ∈ entry.name.toList := by simp [chars]
  have noQuote := entry.not_isQuoteMark_of_mem mem
  refine ⟨position.past entry.name.toList, ?_⟩
  unfold readName
  simp only [taken, dropped]
  simp [chars, noQuote]

theorem filter_not_isAttributeNameCharacter :
    entry.name.toList.filter (!isAttributeNameCharacter ·) = [] := by
  rw [List.filter_eq_nil_iff]
  intro character mem
  simp [entry.allowed character mem]

theorem exists_readValue_eq (value rest : List Char) (position : Position) :
    ∃ stop, readValue ⟨quoteText '\x22' value ++ rest, position⟩ =
      (some '\x22', value, ⟨rest, stop⟩) := by
  rcases exists_readQuoted_eq AttributeEntry.isQuoteMark_double value rest (position.right 1)
    with ⟨stop, read⟩
  refine ⟨stop, ?_⟩
  rw [quoteText_append, readValue]
  simp [isQuoteMark, read]

/-- What becomes of an entry whose name and value are read. -/
def Scanner.endEntry (scanner : Scanner) (start : Position) (name : List Char)
    (quote : Option Char) (value : AttributeValue) (cursor : AttributeCursor) :
    Except (Diagnostic TokenFault) (Scanner × List Char) := do
  if quote.isSome then
    match cursor.rest with
    | found :: _ =>
        if !isSeparator found then
          throw (scanner.faultAt cursor.position (.malformedAttribute found))
    | [] => pure ()
  let named := { scanner with position := cursor.position }
  let added := named.push (.attributeEntry (String.ofList name) value) start
  return ({ added with position := cursor.skip.position }, cursor.skip.rest)

section

variable {scanner : Scanner} {text name others : List Char} {start behind : AttributeCursor}
  (skipped : AttributeCursor.skip ⟨text, scanner.position⟩ = start) (someText : start.rest ≠ [])
  (named : readName start = (none, name, behind)) (someName : name ≠ [])
  (allowed : name.filter (!isAttributeNameCharacter ·) = [])

include skipped someText named someName allowed

theorem attributeEntry_of_bare (bare : ∀ others, behind.skip.rest ≠ '=' :: others) :
    attributeEntry scanner text =
      scanner.endEntry start.position name none .present behind.skip := by
  unfold attributeEntry
  rw [skipped]
  simp only [named, allowed, List.isEmpty_iff, someText, someName, if_false]
  rfl

theorem attributeEntry_of_value {quote : Option Char} {value : List Char}
    {closed : AttributeCursor} (equals : behind.skip.rest = '=' :: others)
    (read : readValue (AttributeCursor.skip ⟨others, behind.skip.position.right 1⟩) =
      (quote, value, closed)) :
    attributeEntry scanner text =
      scanner.endEntry start.position name quote (.text (String.ofList value)) closed := by
  unfold attributeEntry
  rw [skipped]
  simp only [named, allowed, List.isEmpty_iff, someText, someName, if_false, equals, read]
  rfl

end

/-- A value in quotes has to be followed by a separator. -/
theorem exists_endEntry_eq (scanner : Scanner) (start : Position) (name : List Char)
    (value : AttributeValue) {quote : Option Char} {cursor : AttributeCursor}
    (separate : quote = none ∨ ∀ first ∈ cursor.rest.head?, isSeparator first = true) :
    ∃ next, scanner.Collects [.attributeEntry (String.ofList name) value] next ∧
      scanner.endEntry start name quote value cursor = .ok (next, cursor.skip.rest) := by
  have ends : scanner.endEntry start name quote value cursor =
      .ok ({ ({ scanner with position := cursor.position }).push
        (.attributeEntry (String.ofList name) value) start with
          position := cursor.skip.position }, cursor.skip.rest) := by
    unfold Scanner.endEntry
    rcases separate with rfl | separate
    · rfl
    · cases quote with
      | none => rfl
      | some mark =>
          cases rest : cursor.rest with
          | nil => rfl
          | cons first others => simp [separate first (by simp [rest])]; rfl
  refine ⟨_, ?_, ends⟩
  exact (scanner.collects_push _ start cursor.position).trans
    ⟨by simp [Scanner.kinds], rfl, rfl, rfl, rfl, rfl, rfl⟩

theorem not_isSeparator_of_head_print {first : Char}
    (found : first ∈ (entry.print ++ rest).head?) : isSeparator first = false := by
  rcases entry.exists_eq_cons with ⟨other, others, chars⟩
  have same : other = first := by simpa [AttributeEntry.print, chars] using found
  exact entry.not_isSeparator_of_mem (by simp [chars, same])

theorem endsName_of_head_printValue (value : AttributeValue)
    (separate : ∀ first ∈ rest.head?, isSeparator first = true) {first : Char}
    (found : first ∈ (AttributeEntry.printValue value ++ rest).head?) :
    isSeparator first = true ∨ first = '=' := by
  cases value with
  | present => exact .inl (separate first found)
  | text value =>
      have same : '=' = first := by simpa [AttributeEntry.printValue] using found
      exact .inr same.symm

/-- An entry is read up to the next one. -/
theorem exists_attributeEntry_eq (scanner : Scanner)
    (separate : ∀ first ∈ rest.head?, isSeparator first = true)
    (noValue : ∀ first ∈ (rest.dropWhile isSeparator).head?, first ≠ '=') :
    ∃ next, scanner.Collects [entry.kind] next ∧
      attributeEntry scanner (entry.print ++ rest) = .ok (next, rest.dropWhile isSeparator) := by
  rcases entry.exists_eq_cons with ⟨first, others, chars⟩
  have someText : entry.print ++ rest ≠ [] := by simp [AttributeEntry.print, chars]
  have someName : entry.name.toList ≠ [] := by simp [chars]
  have kind : TokenKind.attributeEntry (String.ofList entry.name.toList) entry.value =
      entry.kind := by
    rw [String.ofList_toList]
    rfl
  rcases AttributeCursor.skip_eq scanner.position
    (@not_isSeparator_of_head_print entry rest) with ⟨start, skipped⟩
  rcases exists_readName_eq entry start
    (@endsName_of_head_printValue rest entry.value separate) with ⟨stop, named⟩
  rw [← List.append_assoc] at named
  rw [← kind]
  cases isValue : entry.value with
  | present =>
      have bare : (AttributeCursor.skip
          ⟨AttributeEntry.printValue entry.value ++ rest, stop⟩).rest =
            rest.dropWhile isSeparator := by
        rw [isValue]
        rfl
      have noEquals : ∀ others, rest.dropWhile isSeparator ≠ '=' :: others := by
        intro others equals
        exact noValue '=' (by simp [equals]) rfl
      rw [← bare] at noEquals
      rcases exists_endEntry_eq scanner start entry.name.toList .present (.inl rfl) with
        ⟨next, collects, ends⟩
      refine ⟨next, collects, ?_⟩
      rw [attributeEntry_of_bare skipped someText named someName
        filter_not_isAttributeNameCharacter noEquals, ends]
      rw [AttributeCursor.skip, bare, List.dropWhile_idempotent]
  | text value =>
      have valued : (AttributeCursor.skip
          ⟨AttributeEntry.printValue entry.value ++ rest, stop⟩).rest =
            '=' :: (quoteText '\x22' value.toList ++ rest) := by
        rw [isValue]
        rfl
      have noSeparator : ∀ first ∈ (quoteText '\x22' value.toList ++ rest).head?,
          isSeparator first = false := by
        simp [quoteText, isSeparator]
      rcases AttributeCursor.skip_eq _ noSeparator with ⟨opening, atQuote⟩
      rcases exists_readValue_eq value.toList rest opening with ⟨closing, read⟩
      rw [← atQuote] at read
      rcases exists_endEntry_eq scanner start entry.name.toList (.text value)
        (.inr separate : _ ∨ ∀ first ∈ (AttributeCursor.mk rest closing).rest.head?, _) with
        ⟨next, collects, ends⟩
      refine ⟨next, collects, ?_⟩
      rw [attributeEntry_of_value skipped someText named someName
        filter_not_isAttributeNameCharacter valued read, String.ofList_toList, ends]
      rfl

end

/-! ### Reading a list -/

theorem dropWhile_printRest (entry : AttributeEntry) (rest : List AttributeEntry) :
    (AttributeEntry.printRest (entry :: rest)).dropWhile isSeparator =
      entry.print ++ AttributeEntry.printRest rest := by
  rcases entry.exists_eq_cons with ⟨first, others, chars⟩
  have noSeparator : isSeparator first = false :=
    entry.not_isSeparator_of_mem (by simp [chars])
  have space : isSeparator ' ' = true := rfl
  simp [AttributeEntry.printRest, AttributeEntry.print, chars, space, noSeparator]

/-- Behind an entry stands a space, and then no equals sign. -/
theorem apart_printRest (rest : List AttributeEntry) :
    (∀ first ∈ (AttributeEntry.printRest rest).head?, isSeparator first = true) ∧
      ∀ first ∈ ((AttributeEntry.printRest rest).dropWhile isSeparator).head?, first ≠ '=' := by
  cases rest with
  | nil => simp [AttributeEntry.printRest]
  | cons entry rest =>
      rcases entry.exists_eq_cons with ⟨first, others, chars⟩
      have noEquals : first ≠ '=' := entry.ne_equals_of_mem (by simp [chars])
      rw [dropWhile_printRest]
      simp [AttributeEntry.printRest, AttributeEntry.print, chars, isSeparator, noEquals]

theorem attributeEntries_print_append {entry : AttributeEntry} {behind others : List Char}
    {scanner next : Scanner} (budget : Nat)
    (read : attributeEntry scanner (entry.print ++ behind) = .ok (next, others)) :
    attributeEntries scanner (budget + 1) (entry.print ++ behind) =
      attributeEntries next budget others := by
  rcases entry.exists_eq_cons with ⟨first, more, chars⟩
  rw [attributeEntries, read]
  · rfl
  · simp [AttributeEntry.print, chars]

theorem exists_attributeEntries_eq_cons (rest : List AttributeEntry) (entry : AttributeEntry)
    (scanner : Scanner) {budget : Nat} (enough : rest.length ≤ budget) :
    ∃ next, scanner.Collects ((entry :: rest).map AttributeEntry.kind) next ∧
      attributeEntries scanner (budget + 1) (entry.print ++ AttributeEntry.printRest rest) =
        .ok next := by
  induction rest generalizing entry scanner budget with
  | nil =>
      rcases exists_attributeEntry_eq scanner (apart_printRest []).1 (apart_printRest []).2 with
        ⟨next, collects, read⟩
      refine ⟨next, collects, (attributeEntries_print_append budget read).trans ?_⟩
      cases budget <;> rfl
  | cons following rest ih =>
      rcases exists_attributeEntry_eq scanner (apart_printRest (following :: rest)).1
        (apart_printRest (following :: rest)).2 with ⟨middle, collects, read⟩
      rw [dropWhile_printRest] at read
      cases budget with
      | zero => simp at enough
      | succ budget =>
          rcases ih following middle (Nat.le_of_succ_le_succ enough) with ⟨next, others, reads⟩
          exact ⟨next, collects.trans others,
            (attributeEntries_print_append _ read).trans reads⟩

/-- All entries are read, in order. -/
theorem exists_attributeEntries_eq (entries : List AttributeEntry) (scanner : Scanner)
    {budget : Nat} (enough : entries.length ≤ budget + 1) :
    ∃ next, scanner.Collects (entries.map AttributeEntry.kind) next ∧
      attributeEntries scanner (budget + 1) (AttributeEntry.printAll entries) = .ok next := by
  cases entries with
  | nil => exact ⟨scanner, .refl, rfl⟩
  | cons entry rest =>
      exact exists_attributeEntries_eq_cons rest entry scanner (Nat.le_of_succ_le_succ enough)

end Offside
