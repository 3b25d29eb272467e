import Offside.Proofs.Nesting.Text
import Offside.Proofs.Provenance.Brackets
import Offside.Proofs.Slicing.Reader

/-!
# Attribute lists by index

The entries of an attribute list are read from an array of characters. An index goes over it, and
there is no character at an index that is not smaller than the length.
-/

namespace Offside.Slicing

open Offside.Bracket (byteLength)
open Text

namespace Matcher

/-! ### Indices -/

/-- The character at an index. -/
def characterAt (text : List Char) (index : Nat) : Reading Char :=
  checked text[index]?

/-- The characters from an index on. -/
def charactersFrom (text : List Char) (index : Nat) : Reading (List Char) :=
  checked (if index ≤ text.length then some (text.drop index) else none)

/-- Skip the blanks between entries. -/
def skipSeparators (text : List Char) (index : Nat) : Reading Nat := do
  if index < text.length then
    let character ← characterAt text index
    if isSeparator character then
      update (·.past [character])
      skipSeparators text (index + 1)
    else
      return index
  else
    return index
termination_by text.length - index

/-- The quote that opens at an index, if there is one. -/
def openingQuote (text : List Char) (index : Nat) : Reading (Option Char × Nat) := do
  let first ← characterAt text index
  if isQuoteMark first then
    update (·.right 1)
    return (some first, index + 1)
  else
    return (none, index)

/-- The name of an entry, up to the quote that closes it. -/
def nameFrom (text : List Char) (quote : Option Char) (index : Nat) :
    Reading (List Char × Nat) := do
  if index < text.length then
    let character ← characterAt text index
    if quote = some character then
      update (·.right 1)
      return ([], index + 1)
    else if quote.isNone && (isSeparator character || character == '=') then
      return ([], index)
    else
      update (·.past [character])
      let (name, stop) ← nameFrom text quote (index + 1)
      return (character :: name, stop)
  else
    return ([], index)
termination_by text.length - index

/-- The value of an entry, up to the quote that closes it. A backslash counts only in quotes. -/
def valueFrom (text : List Char) (quote : Option Char) (index : Nat) :
    Reading (List Char × Nat) := do
  if index < text.length then
    let character ← characterAt text index
    if quote = some character then
      update (·.right 1)
      return ([], index + 1)
    else if quote.isSome && character == '\\' && index + 1 < text.length then
      let escaped ← characterAt text (index + 1)
      update (·.right 2)
      let (value, stop) ← valueFrom text quote (index + 2)
      return (unescape escaped :: value, stop)
    else if quote.isNone && isSeparator character then
      return ([], index)
    else
      update (·.past [character])
      let (value, stop) ← valueFrom text quote (index + 1)
      return (character :: value, stop)
  else
    return ([], index)
termination_by text.length - index

/-- The name of an entry, and the quote around it. -/
def quotedName (text : List Char) (index : Nat) :
    Reading (Option Char × List Char × Nat) := do
  let (quote, first) ← openingQuote text index
  let (name, stop) ← nameFrom text quote first
  return (quote, name, stop)

/-- The quote that opens at an index, if there is one. The text may end there. -/
def openingQuoteOrEnd (text : List Char) (index : Nat) : Reading (Option Char × Nat) :=
  if index < text.length then openingQuote text index else return (none, index)

/-- The value behind an equals sign, and the quote around it. -/
def quotedValue (text : List Char) (index : Nat) :
    Reading (Option Char × List Char × Nat) := do
  let (quote, first) ← openingQuoteOrEnd text index
  let (value, stop) ← valueFrom text quote first
  return (quote, value, stop)

/-- What stands behind a name: the quote that was open last, and a value if there is one. -/
def valueBehind (text : List Char) (nameQuote : Option Char) (index : Nat) :
    Reading (Option Char × AttributeValue × Nat) := do
  match text[index]? with
  | some '=' =>
      update (·.right 1)
      let first ← skipSeparators text (index + 1)
      let (quote, value, stop) ← quotedValue text first
      return (quote, .text (String.ofList value), stop)
  | _ => return (nameQuote, .present, index)

/-- What stands directly behind a closing quote, unless it is a blank. -/
def misplaced? (quote next : Option Char) : Option Char :=
  if quote.isSome then next.filter (!isSeparator ·) else none

/-- Behind a closing quote stands a blank, or nothing. -/
def checkClosing (text : List Char) (quote : Option Char) (index : Nat) : Reading Unit := do
  match misplaced? quote text[index]? with
  | some found => fail (.malformedAttribute found)
  | none => pure ()

/-- One entry of an attribute list. What is left of the list is given. -/
def entry (text : List Char) : Reading (List Char) := do
  let index ← skipSeparators text 0
  if index = text.length then
    return []
  else
    let start ← here
    let (nameQuote, name, index) ← quotedName text index
    if name.isEmpty then
      fail .emptyAttributeName
    else
      let invalid := name.filter (!isAttributeNameCharacter ·)
      if !invalid.isEmpty then
        fail (.invalidAttributeName (String.ofList invalid))
      else
        let index ← skipSeparators text index
        let (quote, value, index) ← valueBehind text nameQuote index
        update (·.push (.attributeEntry (String.ofList name) value) start.position)
        checkClosing text quote index
        let index ← skipSeparators text index
        charactersFrom text index

/-- The entries of an attribute list; the budget is at least their number. -/
def entries : (budget : Nat) → List Char → Reading Unit
  | 0, _ => pure ()
  | _ + 1, [] => pure ()
  | budget + 1, text => do
      let rest ← entry text
      entries budget rest

/-- A whole attribute list in round brackets. -/
def attributes : Reading Bool := do
  match ← unread with
  | '(' :: _ =>
      let start ← here
      let (close, body) ← bracketExpression 0 ')'
      update (·.right 1)
      update (·.push .startAttributes start.position)
      consume (close + 1)
      entries (body.length + 1) body
      update fun place => (place.right 1).push .endAttributes place.position
      return true
  | _ => return false

/-! ### What is left behind an index -/

variable {text rest front : List Char} {index : Nat} {character : Char}

/-- A text from an index on. -/
def Left (text : List Char) (index : Nat) (rest : List Char) : Prop :=
  ∃ read, text = read ++ rest ∧ read.length = index

namespace Left

theorem start : Left text 0 text :=
  ⟨[], rfl, rfl⟩

theorem next (left : Left text index (character :: rest)) : Left text (index + 1) rest := by
  rcases left with ⟨read, rfl, rfl⟩
  exact ⟨read ++ [character], by simp, by simp⟩

theorem lt (left : Left text index (character :: rest)) : index < text.length := by
  rcases left with ⟨read, rfl, rfl⟩
  simp

theorem not_lt (left : Left text index []) : ¬index < text.length := by
  rcases left with ⟨read, rfl, rfl⟩
  simp

theorem getElem? (left : Left text index rest) : text[index]? = rest.head? := by
  rcases left with ⟨read, rfl, rfl⟩
  cases rest <;> simp

theorem characterAt_eq (left : Left text index (character :: rest)) :
    characterAt text index = pure character := by
  rw [characterAt, left.getElem?]
  rfl

theorem charactersFrom_eq (left : Left text index rest) :
    charactersFrom text index = pure rest := by
  rcases left with ⟨read, rfl, rfl⟩
  rw [charactersFrom, if_pos (by simp), List.drop_left]
  rfl

theorem eq_length_iff (left : Left text index rest) : index = text.length ↔ rest = [] := by
  rcases left with ⟨read, rfl, rfl⟩
  simp

end Left

/-! ### Names and values -/

section

variable {β : Type} {place scanner : Scanner} {position : Position} {rule : Scanning β}
  {quote : Char}

theorem follows_skipSeparators {next : Nat → Reading β} (left : Left text index rest)
    (follows : ∀ index, Left text index (AttributeCursor.skip ⟨rest, place.position⟩).rest →
      Follows (next index) (.behind front
        { place with position := (AttributeCursor.skip ⟨rest, place.position⟩).position })
        rule scanner) :
    Follows (skipSeparators text index >>= next) (.behind front place) rule scanner := by
  induction rest generalizing index place with
  | nil =>
      rw [skipSeparators, if_neg left.not_lt, pure_bind]
      exact follows index left
  | cons character rest ih =>
      rw [skipSeparators, if_pos left.lt, bind_assoc]
      refine .of_eq left.characterAt_eq ?_
      cases separator : isSeparator character with
      | false =>
          rw [if_neg Bool.false_ne_true, pure_bind]
          simp only [AttributeCursor.skip, List.dropWhile_cons, List.takeWhile_cons, separator,
            Bool.false_eq_true, if_false] at follows
          exact follows index left
      | true =>
          rw [if_pos rfl, bind_assoc]
          simp only [AttributeCursor.skip, List.dropWhile_cons, List.takeWhile_cons, separator,
            if_true] at follows
          exact .update (fun _ => rfl) (ih left.next follows)

/-- The name of an entry in a quote that is open, and what is left behind it. -/
def closeName (quote : Char) (rest : List Char) (position : Position) :
    List Char × AttributeCursor :=
  let name := rest.takeWhile (· ≠ quote)
  match rest.dropWhile (· ≠ quote) with
  | [] => (name, ⟨[], position.past name⟩)
  | _ :: others => (name, ⟨others, (position.past name).right 1⟩)

theorem closeName_cons (rest : List Char) (position : Position) :
    closeName quote (character :: rest) position =
      if character = quote then ([], ⟨rest, position.right 1⟩)
      else
        (closeName quote rest (position.after character)).map (character :: ·) id := by
  by_cases closes : character = quote
  · simp [closeName, closes]
  · simp only [closeName, List.takeWhile_cons, List.dropWhile_cons, ne_eq, closes,
      not_false_eq_true, decide_true, if_true, if_false, Position.past_cons]
    split <;> rfl

theorem readName_eq_of_quote (mark : isQuoteMark quote = true) (rest : List Char)
    (position : Position) :
    readName ⟨quote :: rest, position⟩ =
      (some quote, closeName quote rest (position.right 1)) := by
  simp only [readName, mark, if_true, closeName]
  cases rest.dropWhile (· ≠ quote) <;> rfl

theorem follows_nameFrom_quoted {next : List Char × Nat → Reading β} (left : Left text index rest)
    (follows : ∀ index, Left text index (closeName quote rest position).2.rest →
      Follows (next ((closeName quote rest position).1, index))
        (.behind front { place with position := (closeName quote rest position).2.position })
        rule scanner) :
    Follows (nameFrom text (some quote) index >>= next)
      (.behind front { place with position := position }) rule scanner := by
  induction rest generalizing index position next with
  | nil =>
      rw [nameFrom, if_neg left.not_lt, pure_bind]
      exact follows index left
  | cons character rest ih =>
      rw [closeName_cons] at follows
      rw [nameFrom, if_pos left.lt, bind_assoc]
      refine .of_eq left.characterAt_eq ?_
      by_cases closes : character = quote
      · rw [if_pos closes] at follows
        rw [if_pos (congrArg some closes.symm), bind_assoc]
        refine .update (fun _ => rfl) ?_
        rw [pure_bind]
        exact follows _ left.next
      · have other : some quote ≠ some character := fun same => closes (Option.some.inj same).symm
        rw [if_neg closes] at follows
        rw [if_neg other, if_neg (by simp), bind_assoc]
        refine .update (fun _ => rfl) ?_
        rw [bind_assoc]
        exact ih left.next follows

/-- The characters of a name without quotes. -/
def inName (character : Char) : Bool :=
  !(isSeparator character || character == '=')

theorem follows_nameFrom_plain {next : List Char × Nat → Reading β} (left : Left text index rest)
    (follows : ∀ index, Left text index (rest.dropWhile inName) →
      Follows (next (rest.takeWhile inName, index))
        (.behind front { place with position := position.past (rest.takeWhile inName) })
        rule scanner) :
    Follows (nameFrom text none index >>= next)
      (.behind front { place with position := position }) rule scanner := by
  induction rest generalizing index position next with
  | nil =>
      rw [nameFrom, if_neg left.not_lt, pure_bind]
      exact follows index left
  | cons character rest ih =>
      rw [nameFrom, if_pos left.lt, bind_assoc]
      refine .of_eq left.characterAt_eq ?_
      rw [if_neg (by simp)]
      simp only [List.dropWhile_cons, List.takeWhile_cons] at follows
      cases inside : inName character with
      | false =>
          have stops : (isSeparator character || character == '=') = true := by
            rw [← Bool.not_not (_ || _)]
            exact congrArg (! ·) inside
          simp only [inside, Bool.false_eq_true, if_false] at follows
          rw [stops, if_pos (by rfl), pure_bind]
          exact follows index left
      | true =>
          have goes : (isSeparator character || character == '=') = false := by
            simpa [inName] using inside
          simp only [inside, if_true] at follows
          rw [goes, if_neg (by simp), bind_assoc]
          refine .update (fun _ => rfl) ?_
          rw [bind_assoc]
          exact ih left.next follows

/-- A name is read by index as from the text itself. -/
theorem follows_quotedName {next : Option Char × List Char × Nat → Reading β}
    {entry cursor : AttributeCursor} {nameQuote : Option Char} {name : List Char}
    (read : readName entry = (nameQuote, name, cursor)) (some : entry.rest ≠ [])
    (left : Left text index entry.rest)
    (follows : ∀ index, Left text index cursor.rest →
      Follows (next (nameQuote, name, index))
        (.behind front { place with position := cursor.position }) rule scanner) :
    Follows (quotedName text index >>= next)
      (.behind front { place with position := entry.position }) rule scanner := by
  rcases entry with ⟨rest, position⟩
  cases rest with
  | nil => exact absurd rfl some
  | cons character rest =>
      rw [quotedName, bind_assoc, openingQuote, bind_assoc]
      refine .of_eq left.characterAt_eq ?_
      cases mark : isQuoteMark character with
      | true =>
          rw [readName_eq_of_quote mark, Prod.mk.injEq] at read
          rcases read with ⟨rfl, closed⟩
          rw [if_pos rfl, bind_assoc]
          refine .update (fun _ => rfl) ?_
          rw [pure_bind, bind_assoc]
          refine follows_nameFrom_quoted left.next fun index left => ?_
          change Left text index (closeName character rest (position.right 1)).2.rest at left
          change Follows _ (.behind front { place with
            position := (closeName character rest (position.right 1)).2.position }) rule scanner
          rw [closed] at left ⊢
          exact follows index left
      | false =>
          simp only [readName, mark] at read
          obtain ⟨rfl, rfl, rfl⟩ := read
          rw [if_neg Bool.false_ne_true, pure_bind, bind_assoc]
          exact follows_nameFrom_plain left follows

theorem follows_valueFrom_quoted {next : List Char × Nat → Reading β}
    (mark : isQuoteMark quote = true) (left : Left text index rest)
    (follows : ∀ index, Left text index (readQuoted quote rest position).2.rest →
      Follows (next ((readQuoted quote rest position).1, index))
        (.behind front { place with position := (readQuoted quote rest position).2.position })
        rule scanner) :
    Follows (valueFrom text (some quote) index >>= next)
      (.behind front { place with position := position }) rule scanner := by
  fun_induction readQuoted quote rest position generalizing index next with
  | case1 position =>
      rw [valueFrom, if_neg left.not_lt, pure_bind]
      exact follows index left
  | case2 escaped rest position value cursor read ih =>
      have noBackslash : some quote ≠ some '\\' := by
        rintro ⟨⟩
        exact absurd mark (by decide)
      rw [read] at ih
      rw [valueFrom, if_pos left.lt, bind_assoc]
      refine .of_eq left.characterAt_eq ?_
      rw [if_neg noBackslash, if_pos (by simp [left.next.lt]), bind_assoc]
      refine .of_eq left.next.characterAt_eq ?_
      rw [bind_assoc]
      refine .update (fun _ => rfl) ?_
      rw [bind_assoc]
      exact ih left.next.next follows
  | case3 rest position =>
      rw [valueFrom, if_pos left.lt, bind_assoc]
      refine .of_eq left.characterAt_eq ?_
      rw [if_pos rfl, bind_assoc]
      refine .update (fun _ => rfl) ?_
      rw [pure_bind]
      exact follows _ left.next
  | case4 character rest position noEscape other value cursor read ih =>
      have noQuote : some quote ≠ some character := fun same => other (Option.some.inj same).symm
      have noEscape : ¬((some quote).isSome && character == '\\' &&
          decide (index + 1 < text.length)) = true := by
        simp only [Option.isSome_some, Bool.true_and, Bool.and_eq_true, beq_iff_eq,
          decide_eq_true_eq]
        rintro ⟨backslash, inside⟩
        cases rest with
        | nil => exact left.next.not_lt inside
        | cons escaped rest => exact noEscape escaped rest backslash rfl
      rw [read] at ih
      rw [valueFrom, if_pos left.lt, bind_assoc]
      refine .of_eq left.characterAt_eq ?_
      rw [if_neg noQuote, if_neg noEscape, if_neg (by simp), bind_assoc]
      refine .update (fun _ => rfl) ?_
      rw [bind_assoc]
      exact ih left.next follows

theorem follows_valueFrom_plain {next : List Char × Nat → Reading β}
    (left : Left text index rest)
    (follows : ∀ index, Left text index (rest.dropWhile (!isSeparator ·)) →
      Follows (next (rest.takeWhile (!isSeparator ·), index))
        (.behind front { place with position := position.past (rest.takeWhile (!isSeparator ·)) })
        rule scanner) :
    Follows (valueFrom text none index >>= next)
      (.behind front { place with position := position }) rule scanner := by
  induction rest generalizing index position next with
  | nil =>
      rw [valueFrom, if_neg left.not_lt, pure_bind]
      exact follows index left
  | cons character rest ih =>
      rw [valueFrom, if_pos left.lt, bind_assoc]
      refine .of_eq left.characterAt_eq ?_
      rw [if_neg (by simp), if_neg (by simp)]
      simp only [List.dropWhile_cons, List.takeWhile_cons] at follows
      cases separator : isSeparator character with
      | true =>
          simp only [separator, Bool.not_true, Bool.false_eq_true, if_false] at follows
          rw [if_pos (by rfl), pure_bind]
          exact follows index left
      | false =>
          simp only [separator, Bool.not_false, if_true] at follows
          rw [if_neg (by simp), bind_assoc]
          refine .update (fun _ => rfl) ?_
          rw [bind_assoc]
          exact ih left.next follows

/-- A value is read by index as from the text itself. -/
theorem follows_quotedValue {next : Option Char × List Char × Nat → Reading β}
    (left : Left text index rest)
    (follows : ∀ index, Left text index (readValue ⟨rest, position⟩).2.2.rest →
      Follows (next ((readValue ⟨rest, position⟩).1, (readValue ⟨rest, position⟩).2.1, index))
        (.behind front { place with position := (readValue ⟨rest, position⟩).2.2.position })
        rule scanner) :
    Follows (quotedValue text index >>= next)
      (.behind front { place with position := position }) rule scanner := by
  rw [quotedValue, bind_assoc, openingQuoteOrEnd]
  cases rest with
  | nil =>
      rw [if_neg left.not_lt, pure_bind, bind_assoc]
      exact follows_valueFrom_plain left fun index left => follows index left
  | cons character rest =>
      rw [if_pos left.lt, openingQuote, bind_assoc]
      refine .of_eq left.characterAt_eq ?_
      cases mark : isQuoteMark character with
      | true =>
          simp only [readValue, mark, if_true] at follows
          rw [if_pos rfl, bind_assoc]
          refine .update (fun _ => rfl) ?_
          rw [pure_bind, bind_assoc]
          exact follows_valueFrom_quoted mark left.next follows
      | false =>
          rw [if_neg Bool.false_ne_true, pure_bind, bind_assoc]
          refine follows_valueFrom_plain left fun index left => ?_
          simp only [readValue, mark] at follows
          exact follows index left

/-- What stands behind a name: the quote that was open last, and a value if there is one. -/
def readBehind (nameQuote : Option Char) (cursor : AttributeCursor) :
    Option Char × AttributeValue × AttributeCursor :=
  match cursor.rest with
  | '=' :: rest =>
      let value := readValue (AttributeCursor.skip ⟨rest, cursor.position.right 1⟩)
      (value.1, .text (String.ofList value.2.1), value.2.2)
  | _ => (nameQuote, .present, cursor)

/-- A value behind a name is read by index as from the text itself. -/
theorem follows_valueBehind {next : Option Char × AttributeValue × Nat → Reading β}
    {nameQuote : Option Char} (left : Left text index rest)
    (follows : ∀ index, Left text index (readBehind nameQuote ⟨rest, position⟩).2.2.rest →
      Follows (next ((readBehind nameQuote ⟨rest, position⟩).1,
          (readBehind nameQuote ⟨rest, position⟩).2.1, index))
        (.behind front
          { place with position := (readBehind nameQuote ⟨rest, position⟩).2.2.position })
        rule scanner) :
    Follows (valueBehind text nameQuote index >>= next)
      (.behind front { place with position := position }) rule scanner := by
  rw [valueBehind, left.getElem?]
  cases rest with
  | nil => exact follows index left
  | cons first others =>
      by_cases equals : first = '='
      · subst equals
        simp only [List.head?_cons, bind_assoc]
        refine .update (fun _ => rfl) ?_
        exact follows_skipSeparators left.next fun index left => follows_quotedValue left follows
      · have bare : readBehind nameQuote ⟨first :: others, position⟩ =
            (nameQuote, .present, ⟨first :: others, position⟩) := by
          simp [readBehind, equals]
        rw [bare] at follows
        dsimp only [List.head?_cons]
        split
        · next same => exact absurd (Option.some.inj same) equals
        · exact follows index left

theorem checked_eq {ε α : Type} (quote : Option Char) (rest : List Char) (fault : Char → ε)
    (value : α) :
    (if quote.isSome then
        match rest with
        | found :: _ =>
            if !isSeparator found then throw (fault found) >>= fun _ : PUnit => pure value
            else pure value
        | [] => pure value
      else pure value : Except ε α) =
      match misplaced? quote rest.head? with
      | some found => .error (fault found)
      | none => .ok value := by
  cases quote with
  | none => rfl
  | some quote =>
      cases rest with
      | nil => rfl
      | cons found rest =>
          cases separator : isSeparator found
          all_goals
            simp only [misplaced?, List.head?_cons, Option.filter_some, separator]
            rfl

/-- An entry is checked once it is read: its name, and what stands behind its closing quote. -/
theorem attributeEntry_eq {scanner : Scanner} {entry cursor last : AttributeCursor}
    {nameQuote quote : Option Char} {name : List Char} {value : AttributeValue}
    (skipped : AttributeCursor.skip ⟨text, scanner.position⟩ = entry) (some : entry.rest ≠ [])
    (read : readName entry = (nameQuote, name, cursor))
    (behind : readBehind nameQuote cursor.skip = (quote, value, last)) :
    attributeEntry scanner text =
      if name.isEmpty then .error (scanner.faultAt cursor.position .emptyAttributeName)
      else if !(name.filter (!isAttributeNameCharacter ·)).isEmpty then
        .error (scanner.faultAt cursor.position
          (.invalidAttributeName (String.ofList (name.filter (!isAttributeNameCharacter ·)))))
      else
        match misplaced? quote last.rest.head? with
        | .some found => .error (scanner.faultAt last.position (.malformedAttribute found))
        | none =>
            .ok ({ ({ scanner with position := last.position }).push
              (.attributeEntry (String.ofList name) value) entry.position with
                position := last.skip.position }, last.skip.rest) := by
  unfold attributeEntry
  rw [skipped]
  dsimp -zeta only
  rw [if_neg (mt List.isEmpty_iff.mp some), read]
  dsimp -zeta only
  split
  · rfl
  dsimp only
  split
  · rfl
  cases rest_eq : cursor.skip.rest with
  | nil =>
      simp only [readBehind, rest_eq] at behind
      obtain ⟨rfl, rfl, rfl⟩ := behind
      exact checked_eq _ _ _ _
  | cons first others =>
      by_cases equals : first = '='
      · subst equals
        simp only [readBehind, rest_eq] at behind
        obtain ⟨rfl, rfl, rfl⟩ := behind
        exact checked_eq _ _ _ _
      · simp only [readBehind, rest_eq, List.cons.injEq, equals, false_and, imp_self, implies_true]
          at behind ⊢
        obtain ⟨rfl, rfl, rfl⟩ := behind
        rw [rest_eq]
        exact checked_eq nameQuote (first :: others)
          (fun found => scanner.faultAt cursor.skip.position (.malformedAttribute found)) _

/-- An entry is read by index as from the text itself. -/
theorem follows_entry {next : List Char → Reading β}
    {result : Except (Diagnostic TokenFault) (Scanner × List Char)}
    (same : attributeEntry place text = result)
    (ended : ∀ after rest, result = .ok (after, rest) →
      Follows (next rest) (.behind front after) rule scanner)
    (failed : ∀ fault, result = .error fault →
      ∃ stopped, rule scanner = .error fault stopped ∧ stopped.events = place.events) :
    Follows (entry text >>= next) (.behind front place) rule scanner := by
  rw [entry, bind_assoc]
  refine follows_skipSeparators .start fun index left => ?_
  generalize skipped : AttributeCursor.skip ⟨text, place.position⟩ = first at left ⊢
  by_cases ends : first.rest = []
  · have finished : attributeEntry place text =
        .ok ({ place with position := first.position }, []) := by
      rw [attributeEntry, skipped]
      exact if_pos (List.isEmpty_iff.mpr ends)
    rw [if_pos (left.eq_length_iff.mpr ends), pure_bind]
    exact ended _ _ (same.symm.trans finished)
  · rcases read : readName first with ⟨nameQuote, name, cursor⟩
    rcases behind : readBehind nameQuote cursor.skip with ⟨quote, value, last⟩
    rw [attributeEntry_eq skipped ends read behind] at same
    rw [if_neg (mt left.eq_length_iff.mp ends), bind_assoc]
    refine .here ?_
    rw [bind_assoc]
    refine follows_quotedName read ends left fun index left => ?_
    dsimp only
    split at same
    · next noName =>
        rcases failed _ same.symm with ⟨stopped, ruled, events⟩
        rw [if_pos noName, fail_bind]
        exact .fail ruled rfl events.symm
    rw [if_neg ‹_›]
    split at same
    · next invalid =>
        rcases failed _ same.symm with ⟨stopped, ruled, events⟩
        rw [if_pos invalid, fail_bind]
        exact .fail ruled rfl events.symm
    rw [if_neg ‹_›, bind_assoc]
    refine follows_skipSeparators left fun index left => ?_
    rw [bind_assoc]
    refine follows_valueBehind left fun index left => ?_
    rw [behind] at left ⊢
    rw [bind_assoc]
    refine .update (fun _ => rfl) ?_
    rw [bind_assoc, checkClosing, left.getElem?]
    split at same
    · next found misplaced =>
        rcases failed _ same.symm with ⟨stopped, ruled, events⟩
        rw [misplaced, fail_bind]
        exact .fail ruled rfl events.symm
    · next placed =>
        rw [placed, pure_bind, bind_assoc]
        refine follows_skipSeparators left fun index left => ?_
        rw [left.charactersFrom_eq, pure_bind]
        exact ended _ _ same.symm

/-- The entries of a list are read by index as from the text itself. -/
theorem follows_entries {next : Unit → Reading β} {budget : Nat}
    {result : Except (Diagnostic TokenFault) Scanner}
    (same : attributeEntries place budget text = result)
    (ended : ∀ after, result = .ok after →
      Follows (next ()) (.behind front after) rule scanner)
    (failed : ∀ fault, result = .error fault →
      ∃ stopped, rule scanner = .error fault stopped ∧ stopped.events = place.events) :
    Follows (entries budget text >>= next) (.behind front place) rule scanner := by
  induction budget generalizing place text with
  | zero => exact ended place same.symm
  | succ budget ih =>
      cases text with
      | nil => exact ended place same.symm
      | cons character text =>
          simp only [attributeEntries] at same
          simp only [entries, bind_assoc]
          refine follows_entry rfl (fun after rest entry => ?_) fun fault entry => ?_
          · have events : after.events = place.events :=
              gives_attributeEntry_of_added (·.events = place.events) (fun _ => rfl)
                (fun _ _ _ _ _ => rfl) _ _ entry
            rw [entry] at same
            refine ih same fun fault failure => ?_
            rcases failed fault failure with ⟨stopped, ruled, kept⟩
            exact ⟨stopped, ruled, kept.trans events.symm⟩
          · rw [entry] at same
            exact failed fault same.symm

end

/-- A list of entries that is read to its end is closed, and its bracket with it. -/
theorem attributes_eq {scanner : Scanner} {inside body : List Char}
    (unread_eq : scanner.unread = '(' :: inside)
    (found : scanner.bracketed ['('] ')' inside = .ok (body, rest)) :
    Rule.attributes scanner =
      (attributeEntries { (scanner.right 1).push .startAttributes scanner.position with
        unread := rest } (body.length + 1) body).map fun filled =>
          some ((filled.right 1).push .endAttributes filled.position) := by
  simp only [Rule.attributes, unread_eq]
  rw [found]
  rfl

theorem mirrors_attributes : Mirrors attributes (CheckedRule.run Rule.attributes) := by
  intro front scanner
  refine .unread ?_
  split
  · next inside unread_eq =>
      have cut : scanner.unread = ['('] ++ inside := unread_eq
      refine .here (.bracketExpression cut rfl (fun body rest found inside_eq => ?_)
        fun fault found => ?_)
      · have whole : scanner.unread = ('(' :: body ++ [')']) ++ rest := by
          rw [unread_eq, inside_eq]
          simp
        have ruled := attributes_eq unread_eq found
        generalize filled : attributeEntries _ _ _ = result at ruled
        refine .update (fun _ => rfl) (.update (fun _ => rfl) (.consume whole ?_ ?_))
        · rw [List.cons_append, byteLength, byteLength_append, ← Nat.add_assoc]
          rfl
        · refine follows_entries filled (fun filled done => ?_) fun fault failure => ?_
          · rw [done] at ruled
            exact .update (fun _ => rfl) (.checkedMatched ruled)
          · rw [failure] at ruled
            exact ⟨scanner, by rw [CheckedRule.run, ruled]; rfl, rfl⟩
      · refine ⟨scanner, ?_, rfl⟩
        rw [CheckedRule.run]
        simp only [Rule.attributes, unread_eq]
        rw [found]
        rfl
  · next noBracket =>
      refine .checkedDeclined ?_
      unfold Rule.attributes
      split
      · next behind unread_eq => exact absurd unread_eq (noBracket behind)
      · rfl

end Matcher

end Offside.Slicing
