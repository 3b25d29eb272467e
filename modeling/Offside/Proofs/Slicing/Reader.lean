import Offside.Proofs.Nesting.Words
import Offside.Proofs.Slicing.Slice
import Offside.Token.Keyword
import Offside.Token.Scanner

/-!
# A reader with a byte cursor

A scanner holds the text that is unread. A reader holds the whole text instead, and a cursor in it
that counts bytes. Whatever it looks at is a slice of the text, or a slice of a slice, and it panics
when there is no slice at the offsets that it has computed. It also panics when it subtracts a
larger length from a smaller one.

The reader is compared with a scanner: it follows the scanner if it gives the same values, adds the
same tokens, fails with the same faults, and never panics.
-/

namespace Offside

/-- The byte offset at which a scan for a bracket stopped. -/
def Bracket.Fault.index : Bracket.Fault → Nat
  | .unclosed index => index
  | .mismatched index _ _ => index

namespace Slicing

open Offside.Bracket (byteLength)
open Computing Text

/-- Why a reader stops. -/
inductive Halt where
  /-- Something is wrong with the text. -/
  | fault (fault : Diagnostic TokenFault)
  /-- There is no slice at some offsets, or no difference of some lengths. -/
  | panic

/-- The state of cutting a text into tokens by byte offsets. -/
structure Reader where
  input : List Char
  /-- The cursor: how many bytes of the input are read. -/
  offset : Nat
  /-- Everything else, with nothing unread. -/
  place : Scanner

/-- A computation of a reader. The reader is kept when it stops. -/
abbrev Reading := EStateM Halt Reader

/-! ### Slices and lengths -/

/-- A value, unless there is none. -/
def checked {α : Type} : Option α → Reading α
  | some value => pure value
  | none => throw .panic

/-- The text between two byte offsets. -/
def slice (text : List Char) (first last : Nat) : Reading (List Char) :=
  checked (slice? text first last)

/-- The text behind a byte offset. -/
def sliceFrom (text : List Char) (first : Nat) : Reading (List Char) :=
  slice text first (byteLength text)

/-- The text in front of a byte offset. -/
def sliceTo (text : List Char) (last : Nat) : Reading (List Char) :=
  slice text 0 last

/-- The difference of two lengths. -/
def minus (more less : Nat) : Reading Nat :=
  checked (if less ≤ more then some (more - less) else none)

/-- How many bytes are trimmed off the start of a text. -/
def leading (condition : Char → Bool) (text : List Char) : Reading Nat :=
  minus (byteLength text) (byteLength (text.dropWhile condition))

/-- The byte offset of the first character that satisfies a condition. -/
def find? (condition : Char → Bool) : List Char → Option Nat
  | [] => none
  | character :: text =>
      if condition character then some 0 else (find? condition text).map (character.utf8Size + ·)

/-- The byte offset of the last occurrence of a character. -/
def findLast? (separator : Char) : List Char → Option Nat
  | [] => none
  | character :: text =>
      match findLast? separator text with
      | some offset => some (character.utf8Size + offset)
      | none => if character = separator then some 0 else none

/-- The length of a name at the start of a text. -/
def nameLength (text : List Char) : Nat :=
  (find? (!isWordOrDash ·) text).getD (byteLength text)

/-- Where a line ends, when `behind` stands from the byte `first` of a text on. -/
def lineEnd (text : List Char) (first : Nat) (behind : List Char) : Nat :=
  ((find? (· == '\n') behind).map (first + ·)).getD (byteLength text)

theorem le_lineEnd {text behind : List Char} {first : Nat}
    (inside : lineEnd text first behind < byteLength text) : first ≤ lineEnd text first behind := by
  unfold lineEnd at inside ⊢
  cases found : find? (· == '\n') behind with
  | none => simp [found] at inside
  | some offset => exact Nat.le_add_right first offset

/-! ### The cursor -/

/-- What is not read yet. -/
def unread : Reading (List Char) := do
  let reader ← get
  sliceFrom reader.input reader.offset

/-- Move the cursor by some bytes, but not over the end. -/
def consume (length : Nat) : Reading Unit :=
  modify fun reader =>
    { reader with offset := min (reader.offset + length) (byteLength reader.input) }

/-- Change what the cursor is no part of. -/
def update (change : Scanner → Scanner) : Reading Unit :=
  modify fun reader => { reader with place := change reader.place }

/-- The state without the text. -/
def here : Reading Scanner := do
  return (← get).place

/-- Fail at this place. -/
def fail {α : Type} (cause : TokenFault) : Reading α := do
  throw (.fault ((← here).fault cause))

/-- Fail because no rule accepts the text. -/
def failUnexpected {α : Type} : Reading α := do
  let text ← unread
  fail (.unexpectedText (String.ofList (text.take 5)))

/-- Read some bytes of one line as a token. -/
def emit (kind : TokenKind) (length : Nat) : Reading Unit := do
  let start ← here
  let text ← unread
  let taken ← sliceTo text (min length (byteLength text))
  consume length
  update fun place => (place.right taken.length).push kind start.position

/-! ### Brackets and line ends -/

/-- Scan a text from a byte offset on for an unnested closing bracket. Its offset is given, and the
text in front of it. -/
def parseUntil (text : List Char) (first : Nat) (close : Char) :
    Reading (Except Bracket.Fault (Nat × List Char)) := do
  let inside ← sliceFrom text first
  match Bracket.find close inside with
  | .closed body _ =>
      let last := first + byteLength body
      let source ← slice text first last
      return .ok (last, source)
  | .unclosed => return .error (.unclosed (byteLength text))
  | .mismatched body expected found =>
      return .error (.mismatched (first + byteLength body) expected found)

/-- The fault for a bracket, once the cursor stands where the scan stopped. -/
def failBracket {α : Type} (close : Char) : Bracket.Fault → Reading α
  | .unclosed _ => fail (.noEndBracket close)
  | .mismatched _ expected found => fail (.bracketMismatch expected found)

/-- The text in the bracket that opens behind `skip` bytes, and where the bracket closes. -/
def bracketExpression (skip : Nat) (close : Char) : Reading (Nat × List Char) := do
  let text ← unread
  match ← parseUntil text (skip + 1) close with
  | .ok range => return range
  | .error fault =>
      let passed ← sliceTo text fault.index
      update (·.past passed)
      failBracket close fault

/-- Read a token up to the end of its line. The spaces in front of it are not part of it, and the
blanks behind it are read but have no width. -/
def finishLine (kind : TokenKind) (spaces width length : Nat) : Reading Token := do
  update (·.right spaces)
  consume length
  let start ← here
  let more ← minus width spaces
  update (·.right more)
  let stop ← here
  return ⟨kind, .start start.file start.position, stop.position⟩

/-- A token of some bytes that must end its line, or stand in front of a colon. -/
def scanEndOfLine (length : Nat) (kind : TokenKind) : Reading (Option Token) := do
  let text ← unread
  let matched ← sliceTo text length
  let behind ← sliceFrom text length
  let spaces ← leading (· == ' ') matched
  match behind with
  | ':' :: _ => some <$> finishLine kind spaces matched.length length
  | _ =>
      let trimmed := behind.dropWhile isIndentation
      match trimmed with
      | [] | '\n' :: _ => do
          let blanks ← minus (byteLength behind) (byteLength trimmed)
          some <$> finishLine kind spaces matched.length (length + blanks)
      | _ => return none

/-! ### Following a scanner -/

/-- The reader that has read a text and stands where a scanner does. -/
def Reader.behind (front : List Char) (scanner : Scanner) : Reader where
  input := front ++ scanner.unread
  offset := byteLength front
  place := { scanner with unread := [] }

/-- A reader ends as a scanner does: with the same value, at the place of the scanner, or with the
same fault and after the same events. It does not panic. -/
def Ends {α : Type} (read : EStateM.Result Halt Reader α) :
    EStateM.Result (Diagnostic TokenFault) Scanner α → Prop
  | .ok value after => ∃ front, read = .ok value (.behind front after)
  | .error fault stopped =>
      ∃ reader, read = .error (.fault fault) reader ∧ reader.place.events = stopped.events

/-- What is done from a reader on ends as what is done from a scanner on. -/
def Follows {α : Type} (reading : Reading α) (reader : Reader) (rule : Scanning α)
    (scanner : Scanner) : Prop :=
  Ends (reading reader) (rule scanner)

/-- A reader at the place of a scanner ends as the scanner does, wherever that is. -/
def Mirrors {α : Type} (reading : Reading α) (rule : Scanning α) : Prop :=
  ∀ front scanner, Follows reading (.behind front scanner) rule scanner

section

variable {text front body rest : List Char}

/-! ### Slices that exist -/

theorem slice_eq {first last : Nat} (cut : text = front ++ body ++ rest)
    (first_eq : byteLength front = first) (last_eq : byteLength front + byteLength body = last) :
    slice text first last = pure body := by
  rw [slice, slice?_eq_some_iff.mpr ⟨front, rest, cut, first_eq, last_eq⟩]
  rfl

theorem sliceFrom_eq {first : Nat} (cut : text = front ++ rest)
    (first_eq : byteLength front = first) : sliceFrom text first = pure rest := by
  have whole : text = front ++ rest ++ [] := by rw [cut, List.append_nil]
  exact slice_eq whole first_eq (by rw [cut, byteLength_append])

theorem sliceTo_eq {last : Nat} (cut : text = body ++ rest) (last_eq : byteLength body = last) :
    sliceTo text last = pure body := by
  have whole : text = [] ++ body ++ rest := cut
  exact slice_eq whole rfl (by rw [byteLength, Nat.zero_add, last_eq])

theorem sliceTo_byteLength (text : List Char) : sliceTo text (byteLength text) = pure text :=
  sliceTo_eq (List.append_nil text).symm rfl

theorem minus_eq {more less : Nat} (le : less ≤ more) : minus more less = pure (more - less) := by
  rw [minus, if_pos le]
  rfl

theorem leading_eq (condition : Char → Bool) (text : List Char) :
    leading condition text = pure (byteLength (text.takeWhile condition)) := by
  have parts := congrArg byteLength (List.takeWhile_append_dropWhile (p := condition) (l := text))
  rw [byteLength_append] at parts
  rw [leading, minus_eq (by omega)]
  congr 1
  omega

/-- Up to the first character that satisfies a condition, or up to the end. -/
theorem find?_getD (condition : Char → Bool) (text : List Char) :
    (find? condition text).getD (byteLength text) =
      byteLength (text.takeWhile fun character => !condition character) := by
  induction text with
  | nil => rfl
  | cons character text ih =>
      rw [find?]
      cases found : condition character with
      | true => simp [found, byteLength]
      | false =>
          simp only [List.takeWhile_cons, found, Bool.not_false, if_true, byteLength, ← ih]
          cases find? condition text <;> rfl

theorem nameLength_eq (text : List Char) :
    nameLength text = byteLength (text.takeWhile isWordOrDash) := by
  have found := find?_getD (!isWordOrDash ·) text
  simp only [Bool.not_not] at found
  exact found

/-- A name is as long in bytes as in characters. -/
theorem nameLength_eq_length (text : List Char) :
    nameLength text = (text.takeWhile isWordOrDash).length := by
  rw [nameLength_eq, byteLength_takeWhile fun _ => utf8Size_of_isWordOrDash]

theorem nameLength_eq_zero_iff (text : List Char) :
    nameLength text = 0 ↔ (text.takeWhile isWordOrDash).isEmpty = true := by
  rw [nameLength_eq, byteLength_eq_zero_iff, List.isEmpty_iff]

/-- A name at the start of a text is a slice of it. -/
theorem sliceTo_nameLength (text : List Char) :
    sliceTo text (nameLength text) = pure (text.takeWhile isWordOrDash) :=
  sliceTo_eq List.takeWhile_append_dropWhile.symm (nameLength_eq text).symm

theorem lineEnd_eq {first : Nat} (cut : text = front ++ rest)
    (first_eq : byteLength front = first) :
    lineEnd text first rest = first + byteLength (firstLine rest) := by
  have found := find?_getD (· == '\n') rest
  have line : (rest.takeWhile fun character => !(character == '\n')) = firstLine rest := by
    unfold firstLine
    congr 1
    funext character
    by_cases newline : character = '\n' <;> simp [newline]
  rw [line] at found
  rw [← found, lineEnd, cut, byteLength_append, first_eq]
  cases find? (· == '\n') rest <;> rfl

theorem findLast?_eq (separator : Char) (text : List Char) :
    findLast? separator text = (splitLast? separator text).map fun parts => byteLength parts.1 := by
  induction text with
  | nil => rfl
  | cons character text ih =>
      rw [findLast?, splitLast?, ih]
      cases splitLast? separator text with
      | some parts => rfl
      | none =>
          simp only [Option.map_none]
          split <;> rfl

/-- Nothing is done behind a failure. -/
theorem fail_bind {α β : Type} (cause : TokenFault) (next : α → Reading β) :
    fail cause >>= next = fail cause :=
  rfl

end

/-! ### Steps of a reader -/

section

variable {α β : Type} {front rest taken : List Char} {place scanner after : Scanner}
  {reader : Reader} {fault : Diagnostic TokenFault}

/-- At the place of a scanner the cursor is the end of a part of the input. -/
theorem unread_behind (front : List Char) (place : Scanner) :
    unread (.behind front place) = .ok place.unread (.behind front place) := by
  have sliced : unread (.behind front place) =
      sliceFrom (front ++ place.unread) (byteLength front) (.behind front place) := rfl
  rw [sliced, sliceFrom_eq rfl rfl]
  rfl

/-- A change that does not look at the text can be repeated without a look at it. -/
theorem foldl_unread {change : Scanner → Scanner}
    (blind : ∀ scanner text, change { scanner with unread := text } =
      { change scanner with unread := text }) (entries : List α) (scanner : Scanner)
    (text : List Char) :
    entries.foldl (fun left _ => change left) { scanner with unread := text } =
      { entries.foldl (fun left _ => change left) scanner with unread := text } := by
  induction entries generalizing scanner with
  | nil => rfl
  | cons entry entries ih => rw [List.foldl_cons, blind, ih, List.foldl_cons]

namespace Follows

variable {next : α → Reading β} {rule : Scanning β}

/-- A part that is known to give a value. -/
theorem of_eq {reading : Reading α} {value : α} (same : reading = Pure.pure value)
    (follows : Follows (next value) reader rule scanner) :
    Follows (reading >>= next) reader rule scanner := by
  rwa [same, pure_bind]

theorem unread {next : List Char → Reading β}
    (follows : Follows (next place.unread) (.behind front place) rule scanner) :
    Follows (Slicing.unread >>= next) (.behind front place) rule scanner := by
  unfold Follows
  rwa [bind_of_ok (unread_behind front place)]

theorem here {next : Scanner → Reading β}
    (follows : Follows (next reader.place) reader rule scanner) :
    Follows (Slicing.here >>= next) reader rule scanner :=
  follows

theorem consume {next : Unit → Reading β} {length : Nat} (cut : place.unread = taken ++ rest)
    (length_eq : byteLength taken = length)
    (follows : Follows (next ()) (.behind (front ++ taken) { place with unread := rest }) rule
      scanner) :
    Follows (Slicing.consume length >>= next) (.behind front place) rule scanner := by
  have moved : (⟨front ++ place.unread, min (byteLength front + length)
      (byteLength (front ++ place.unread)), { place with unread := [] }⟩ : Reader) =
        .behind (front ++ taken) { place with unread := rest } := by
    simp only [Reader.behind, cut, byteLength_append, ← length_eq, List.append_assoc]
    congr 1
    omega
  rw [← moved] at follows
  exact follows

/-- A change that does not look at the text. -/
theorem update {next : Unit → Reading β} {change : Scanner → Scanner}
    (blind : ∀ text, change { place with unread := text } = { change place with unread := text })
    (follows : Follows (next ()) (.behind front (change place)) rule scanner) :
    Follows (Slicing.update change >>= next) (.behind front place) rule scanner := by
  have kept : (change place).unread = place.unread := by
    have same := congrArg Scanner.unread (blind place.unread)
    exact same
  have moved : (⟨front ++ place.unread, byteLength front, change { place with unread := [] }⟩ :
      Reader) = .behind front (change place) := by
    rw [blind, Reader.behind, kept]
  rw [← moved] at follows
  exact follows

theorem emit {next : Unit → Reading β} {kind : TokenKind} {length : Nat}
    (cut : place.unread = taken ++ rest) (length_eq : byteLength taken = length)
    (follows : Follows (next ()) (.behind (front ++ taken) (place.emit kind taken.length)) rule
      scanner) :
    Follows (Slicing.emit kind length >>= next) (.behind front place) rule scanner := by
  have short : byteLength taken = min length (byteLength place.unread) := by
    rw [cut, byteLength_append]
    omega
  have emitted : place.emit kind taken.length =
      ({ place with unread := rest }.right taken.length).push kind place.position := by
    simp only [Scanner.emit, Scanner.drop, cut, List.take_left, List.drop_left]
  rw [emitted] at follows
  rw [Slicing.emit, bind_assoc]
  refine .here ?_
  rw [bind_assoc]
  refine .unread ?_
  rw [bind_assoc]
  refine .of_eq (sliceTo_eq cut short) ?_
  rw [bind_assoc]
  exact .consume cut length_eq (.update (fun _ => rfl) follows)

/-- A rule that does the same at this place. -/
theorem of_rule_eq {reading : Reading β} {other : Scanning β} (same : rule scanner = other scanner)
    (follows : Follows reading reader other scanner) : Follows reading reader rule scanner := by
  unfold Follows
  rwa [same]

/-- A look at the scanner. -/
theorem get {reading : Reading β} {following : Scanner → Scanning β}
    (follows : Follows reading reader (following scanner) scanner) :
    Follows reading reader (MonadState.get >>= following) scanner :=
  follows

/-- A change of the scanner. -/
theorem modify {reading : Reading β} {change : Scanner → Scanner} {following : Unit → Scanning β}
    (follows : Follows reading reader (following ()) (change scanner)) :
    Follows reading reader (modifyThe Scanner change >>= following) scanner :=
  follows

/-- A look at the scanner that changes it. -/
theorem modifyGet {γ : Type} {reading : Reading β} {change : Scanner → γ × Scanner} {value : γ}
    {following : γ → Scanning β} (changed : change scanner = (value, after))
    (follows : Follows reading reader (following value) after) :
    Follows reading reader (MonadStateOf.modifyGet change >>= following) scanner := by
  have gone : (MonadStateOf.modifyGet change >>= following) scanner =
      following (change scanner).1 (change scanner).2 := modifyGet_bind_eq
  unfold Follows
  rwa [gone, changed]

/-- Another scanner. -/
theorem set {reading : Reading β} {following : Unit → Scanning β}
    (follows : Follows reading reader (following ()) after) :
    Follows reading reader (MonadStateOf.set after >>= following) scanner :=
  follows

/-- What a scanner gives is known. -/
theorem done {value : α} {rule : Scanning α} (ruled : rule scanner = .ok value after) :
    Follows (Pure.pure value) (.behind front after) rule scanner := by
  unfold Follows
  rw [ruled]
  exact ⟨front, rfl⟩

theorem pure {value : α} : Follows (pure value) (.behind front after) (pure value) after :=
  ⟨front, rfl⟩

theorem fail {cause : TokenFault} {rule : Scanning α} {stopped : Scanner}
    (failed : rule scanner = .error fault stopped) (same : reader.place.fault cause = fault)
    (events : reader.place.events = stopped.events) :
    Follows (Slicing.fail cause) reader rule scanner := by
  unfold Follows
  rw [failed]
  exact ⟨reader, by rw [← same]; rfl, events⟩

/-- Something that is mirrored, and what is done then. -/
theorem bind {reading : Reading α} {rule : Scanning α} {following : α → Scanning β}
    (first : Follows reading reader rule scanner)
    (second : ∀ value front after, rule scanner = .ok value after →
      Follows (next value) (.behind front after) (following value) after) :
    Follows (reading >>= next) reader (rule >>= following) scanner := by
  unfold Follows at first ⊢
  cases ruled : rule scanner with
  | ok value after =>
      rw [ruled] at first
      rcases first with ⟨front, acted⟩
      rw [bind_of_ok acted, bind_of_ok ruled]
      exact second value front after ruled
  | error fault stopped =>
      rw [ruled] at first
      rcases first with ⟨reader, acted, events⟩
      rw [bind_of_error acted, bind_of_error ruled]
      exact ⟨reader, rfl, events⟩

/-- Something that is mirrored, when it is known what a scanner does there. -/
theorem after_ok {reading : Reading α} {first : Scanning α} {value : α}
    (mirrors : Mirrors reading first) (ruled : first place = .ok value after)
    (follows : ∀ front, Follows (next value) (.behind front after) rule scanner) :
    Follows (reading >>= next) (.behind front place) rule scanner := by
  have done := mirrors front place
  unfold Follows at done
  rw [ruled] at done
  rcases done with ⟨read, acted⟩
  unfold Follows
  rw [bind_of_ok acted]
  exact follows read

/-! ### Rules that match, decline or fail -/

theorem matched {rule : SimpleRule} (found : rule scanner = some after) :
    Follows (Pure.pure true) (.behind front after) (SimpleRule.run rule) scanner := by
  unfold Follows SimpleRule.run
  rw [found]
  exact ⟨front, rfl⟩

theorem declined {rule : SimpleRule} (found : rule scanner = none) :
    Follows (Pure.pure false) (.behind front scanner) (SimpleRule.run rule) scanner := by
  unfold Follows SimpleRule.run
  rw [found]
  exact ⟨front, rfl⟩

theorem checkedMatched {rule : CheckedRule} (found : rule scanner = .ok (some after)) :
    Follows (Pure.pure true) (.behind front after) (CheckedRule.run rule) scanner := by
  unfold Follows CheckedRule.run
  rw [found]
  exact ⟨front, rfl⟩

theorem checkedDeclined {rule : CheckedRule} (found : rule scanner = .ok none) :
    Follows (Pure.pure false) (.behind front scanner) (CheckedRule.run rule) scanner := by
  unfold Follows CheckedRule.run
  rw [found]
  exact ⟨front, rfl⟩

theorem checkedFailed {rule : CheckedRule} {cause : TokenFault}
    (found : rule scanner = .error fault) (same : reader.place.fault cause = fault)
    (events : reader.place.events = scanner.events) :
    Follows (Slicing.fail cause) reader (CheckedRule.run rule) scanner :=
  .fail (by rw [CheckedRule.run, found]) same events

end Follows

/-! ### Brackets and line ends -/

section

variable {text : List Char} {rule : Scanning β}

theorem parseUntil_eq {first : Nat} {close : Char} {inside : List Char}
    (cut : text = front ++ inside) (first_eq : byteLength front = first) :
    parseUntil text first close =
      pure (match Bracket.find close inside with
        | .closed body _ => .ok (first + byteLength body, body)
        | .unclosed => .error (.unclosed (byteLength text))
        | .mismatched body expected found =>
            .error (.mismatched (first + byteLength body) expected found)) := by
  rw [parseUntil, sliceFrom_eq cut first_eq, pure_bind]
  cases found : Bracket.find close inside with
  | closed body rest =>
      have inside_eq := Bracket.eq_append_of_find_eq_closed found
      have whole : text = front ++ body ++ close :: rest := by
        rw [cut, inside_eq, List.append_assoc]
      dsimp only
      rw [slice_eq whole first_eq (by rw [first_eq]), pure_bind]
  | unclosed => rfl
  | mismatched => rfl

/-- A reader finds the bracket that a scanner finds, and fails as it does. -/
theorem Follows.bracketExpression {next : Nat × List Char → Reading β}
    {opening inside : List Char} {skip : Nat} {close : Char}
    (cut : place.unread = opening ++ inside) (skip_eq : byteLength opening = skip + 1)
    (closed : ∀ body rest, place.bracketed opening close inside = .ok (body, rest) →
      inside = body ++ close :: rest →
      Follows (next (skip + 1 + byteLength body, body)) (.behind front place) rule scanner)
    (failed : ∀ fault, place.bracketed opening close inside = .error fault →
      ∃ stopped, rule scanner = .error fault stopped ∧ stopped.events = place.events) :
    Follows (Slicing.bracketExpression skip close >>= next) (.behind front place) rule scanner := by
  rw [Slicing.bracketExpression, bind_assoc]
  refine .unread ?_
  rw [bind_assoc]
  refine .of_eq (parseUntil_eq cut skip_eq) ?_
  unfold Scanner.bracketed at closed failed
  cases found : Bracket.find close inside with
  | closed body rest =>
      dsimp only
      rw [pure_bind]
      rw [found] at closed
      exact closed body rest rfl (Bracket.eq_append_of_find_eq_closed found)
  | unclosed =>
      rw [found] at failed
      rcases failed _ rfl with ⟨stopped, ruled, events⟩
      dsimp only [Bracket.Fault.index]
      rw [sliceTo_byteLength, pure_bind, failBracket, bind_assoc]
      refine .update (fun _ => rfl) ?_
      unfold Follows
      rw [ruled, cut]
      exact ⟨_, rfl, events.symm⟩
  | mismatched body expected other =>
      rw [found] at failed
      rcases failed _ rfl with ⟨stopped, ruled, events⟩
      rcases Bracket.exists_append_of_find_eq_mismatched found with ⟨rest, inside_eq⟩
      have passed : place.unread = opening ++ body ++ other :: rest := by
        rw [cut, inside_eq, List.append_assoc]
      dsimp only [Bracket.Fault.index]
      rw [sliceTo_eq passed (by rw [byteLength_append, skip_eq]), pure_bind, failBracket,
        bind_assoc]
      refine .update (fun _ => rfl) ?_
      unfold Follows
      rw [ruled]
      exact ⟨_, rfl, events.symm⟩

theorem right_right_sub (position : Position) {less more : Nat} (le : less ≤ more) :
    (position.right less).right (more - less) = position.right more := by
  simp only [Position.right]
  congr 1
  omega

theorem Follows.finishLine {next : Token → Reading β} {kind : TokenKind}
    {spaces width length : Nat} (fewer : spaces ≤ width) (cut : place.unread = taken ++ rest)
    (length_eq : byteLength taken = length)
    (follows : Follows
      (next ⟨kind, .start place.file (place.position.right spaces), place.position.right width⟩)
      (.behind (front ++ taken)
        { place with unread := rest, position := place.position.right width }) rule scanner) :
    Follows (Slicing.finishLine kind spaces width length >>= next) (.behind front place) rule
      scanner := by
  have moved : (place.right spaces).unread = taken ++ rest := cut
  rw [← right_right_sub place.position fewer] at follows
  rw [Slicing.finishLine, bind_assoc]
  refine .update (fun _ => rfl) ?_
  rw [bind_assoc]
  refine .consume moved length_eq ?_
  rw [bind_assoc]
  refine .here ?_
  rw [bind_assoc]
  refine .of_eq (minus_eq fewer) ?_
  rw [bind_assoc]
  refine .update (fun _ => rfl) ?_
  rw [bind_assoc]
  refine .here ?_
  rw [pure_bind]
  exact follows

/-- What is read of a token that must end its line. -/
theorem endOfLine?_eq (scanner : Scanner) (matched : List Char) (kind : TokenKind)
    {others : List Char} (noColon : ∀ tail, others ≠ ':' :: tail) :
    scanner.endOfLine? matched others kind =
      match others.dropWhile isIndentation with
      | [] | '\n' :: _ => some
          (⟨kind,
            .start scanner.file (scanner.position.right (matched.takeWhile (· == ' ')).length),
            scanner.position.right matched.length⟩,
          { scanner with
            unread := others.dropWhile isIndentation
            position := scanner.position.right matched.length })
      | _ => none := by
  unfold Scanner.endOfLine?
  split
  · next tail => exact absurd rfl (noColon tail)
  · cases others.dropWhile isIndentation with
    | nil => rfl
    | cons first rest =>
        by_cases newline : first = '\n'
        · subst newline
          rfl
        · simp [newline]

/-- A reader finds the end of a line where a scanner finds it. -/
theorem Follows.scanEndOfLine {next : Option Token → Reading β} {matched others : List Char}
    {length : Nat} {kind : TokenKind} (cut : place.unread = matched ++ others)
    (length_eq : byteLength matched = length)
    (ends : ∀ token after front, place.endOfLine? matched others kind = some (token, after) →
      Follows (next (some token)) (.behind front after) rule scanner)
    (declined : place.endOfLine? matched others kind = none →
      Follows (next none) (.behind front place) rule scanner) :
    Follows (Slicing.scanEndOfLine length kind >>= next) (.behind front place) rule scanner := by
  have spaces : byteLength (matched.takeWhile (· == ' ')) =
      (matched.takeWhile (· == ' ')).length :=
    byteLength_takeWhile fun character space => by
      obtain rfl := beq_iff_eq.mp space
      rfl
  have fewer : (matched.takeWhile (· == ' ')).length ≤ matched.length :=
    (List.takeWhile_prefix _).length_le
  rw [Slicing.scanEndOfLine, bind_assoc]
  refine .unread ?_
  rw [bind_assoc]
  refine .of_eq (sliceTo_eq cut length_eq) ?_
  rw [bind_assoc]
  refine .of_eq (sliceFrom_eq cut length_eq) ?_
  rw [bind_assoc]
  refine .of_eq (leading_eq _ _) ?_
  rw [spaces]
  split
  · rw [map_eq_pure_bind, bind_assoc]
    refine .finishLine fewer cut length_eq ?_
    rw [pure_bind]
    exact ends _ _ _ rfl
  · next noColon =>
      have found := endOfLine?_eq place matched kind noColon
      have blanks := List.takeWhile_append_dropWhile (p := isIndentation) (l := others)
      have whole : place.unread = matched ++ others.takeWhile isIndentation ++
          others.dropWhile isIndentation := by rw [List.append_assoc, blanks, cut]
      have bytes := congrArg byteLength blanks
      rw [byteLength_append] at bytes
      have less : byteLength (others.dropWhile isIndentation) ≤ byteLength others := by omega
      have read : byteLength (matched ++ others.takeWhile isIndentation) =
          length + (byteLength others - byteLength (others.dropWhile isIndentation)) := by
        rw [byteLength_append, length_eq]
        omega
      dsimp only
      generalize others.dropWhile isIndentation = trimmed at found whole less read ⊢
      split
      · rw [bind_assoc]
        refine .of_eq (minus_eq less) ?_
        rw [map_eq_pure_bind, bind_assoc]
        refine .finishLine fewer whole read ?_
        rw [pure_bind]
        exact ends _ _ _ found
      · rw [bind_assoc]
        refine .of_eq (minus_eq less) ?_
        rw [map_eq_pure_bind, bind_assoc]
        refine .finishLine fewer whole read ?_
        rw [pure_bind]
        exact ends _ _ _ found
      · next noEnd noNewline =>
          rw [pure_bind]
          refine declined ?_
          rw [found]
          split
          · exact absurd rfl noEnd
          · exact absurd rfl (noNewline _)
          · rfl

end

end

end Slicing

end Offside
