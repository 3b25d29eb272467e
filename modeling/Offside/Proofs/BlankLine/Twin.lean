import Offside.Proofs.BlankLine.Text
import Offside.Proofs.Parallel
import Offside.Proofs.Renumbering.Document
import Offside.Token.Scanner

/-!
# Scanners in two texts

Two scanners read the same line, at the same column, and have found the same tokens so far, but for
the lines on which these stand. A rule that does not look behind the line takes both to such
scanners again, or fails in both for the same reason.
-/

namespace Offside

open Computing Text

/-- Both results are values, or both are faults, and they are related. -/
inductive Computing.Both {ε α α' : Type} (values : α → α' → Prop) (faults : ε → ε → Prop) :
    Except ε α → Except ε α' → Prop where
  | ok {value : α} {value' : α'} (related : values value value') :
      Both values faults (.ok value) (.ok value')
  | error {fault fault' : ε} (related : faults fault fault') :
      Both values faults (.error fault) (.error fault')

/-- Both faults have the same code. -/
def SameReason (fault fault' : Diagnostic TokenFault) : Prop :=
  fault'.cause.reason = fault.cause.reason

theorem SameReason.refl {cause : TokenFault} {span span' : Span} {source source' : Option String} :
    SameReason ⟨cause, span, source⟩ ⟨cause, span', source'⟩ :=
  rfl

theorem column_past {position position' : Position} (column : position'.column = position.column)
    (text : List Char) : (position'.past text).column = (position.past text).column := by
  induction text generalizing position position' with
  | nil => exact column
  | cons character rest ih =>
      refine ih ?_
      unfold Position.after
      split
      · rfl
      · simp [Position.right, column]

/-- The token without the lines on which it stands. -/
def Token.lineless (token : Token) : Token :=
  token.renumber fun _ => 0

namespace Scanner

/-- Two scanners that have the same front to read, and then each its own rest. They may be on
different lines. -/
structure Twin (front rest rest' : List Char) (scanner other : Scanner) : Prop where
  file : other.file = scanner.file
  interpolated : other.interpolated = scanner.interpolated
  unread : scanner.unread = front ++ rest
  unreadOther : other.unread = front ++ rest'
  column : other.position.column = scanner.position.column
  levels : other.levels = scanner.levels
  unit : other.unit = scanner.unit
  markersAllowed : other.markersAllowed = scanner.markersAllowed
  ended : other.ended = scanner.ended
  found : other.found.map Token.lineless = scanner.found.map Token.lineless

/-- Two scanners that have a front of at most `limit` characters in common. -/
def Twins (limit : Nat) (rest rest' : List Char) (scanner other : Scanner) : Prop :=
  ∃ front, front.length ≤ limit ∧ Twin front rest rest' scanner other

theorem Twins.mono {limit more : Nat} {rest rest' : List Char} {scanner other : Scanner}
    (twins : Twins limit rest rest' scanner other) (less : limit ≤ more) :
    Twins more rest rest' scanner other := by
  rcases twins with ⟨front, fits, twin⟩
  exact ⟨front, Nat.le_trans fits less, twin⟩

namespace Twin

variable {front rest rest' : List Char} {scanner other : Scanner}

theorem twins (twin : Twin front rest rest' scanner other) {limit : Nat}
    (fits : front.length ≤ limit) : Twins limit rest rest' scanner other :=
  ⟨front, fits, twin⟩

theorem top (twin : Twin front rest rest' scanner other) : other.top = scanner.top := by
  rw [Scanner.top, twin.levels]
  rfl

/-- Both scanners read something, and come to the same column. -/
theorem read (twin : Twin front rest rest' scanner other) (left : List Char)
    {position position' : Position} (column : position'.column = position.column) :
    Twin left rest rest' { scanner with unread := left ++ rest, position := position }
      { other with unread := left ++ rest', position := position' } :=
  { twin with unread := rfl, unreadOther := rfl, column }

theorem drop (twin : Twin front rest rest' scanner other) {count : Nat}
    (within : count ≤ front.length) :
    Twin (front.drop count) rest rest' (scanner.drop count) (other.drop count) :=
  { twin with
    unread := by rw [Scanner.drop, twin.unread, List.drop_append_of_le_length within]
    unreadOther := by rw [Scanner.drop, twin.unreadOther, List.drop_append_of_le_length within] }

theorem right (twin : Twin front rest rest' scanner other) (count : Nat) :
    Twin front rest rest' (scanner.right count) (other.right count) :=
  { twin with column := congrArg (· + count) twin.column }

theorem past (twin : Twin front rest rest' scanner other) (text : List Char) :
    Twin front rest rest' (scanner.past text) (other.past text) :=
  { twin with column := column_past twin.column text }

theorem nextLine (twin : Twin front rest rest' scanner other) :
    Twin front rest rest' scanner.nextLine other.nextLine :=
  { twin with column := rfl }

theorem note (twin : Twin front rest rest' scanner other) (event : Event) :
    Twin front rest rest' (scanner.note event) (other.note event) :=
  { twin with }

theorem allow (twin : Twin front rest rest' scanner other) (allowed : Bool) :
    Twin front rest rest' { scanner with markersAllowed := allowed }
      { other with markersAllowed := allowed } :=
  { twin with markersAllowed := rfl }

/-- Both scanners add a token, at the same column. -/
theorem pushToken (twin : Twin front rest rest' scanner other) {token token' : Token}
    (same : token'.lineless = token.lineless) :
    Twin front rest rest' (scanner.pushToken token) (other.pushToken token') :=
  { twin with found := by simp [Scanner.pushToken, same, twin.found] }

theorem push (twin : Twin front rest rest' scanner other) (kind : TokenKind)
    {start start' : Position} (column : start'.column = start.column) :
    Twin front rest rest' (scanner.push kind start) (other.push kind start') := by
  refine twin.pushToken ?_
  simp [Token.lineless, Token.renumber, Span.renumber, Span.start, twin.file, twin.column, column]

theorem pushHere (twin : Twin front rest rest' scanner other) (kind : TokenKind) :
    Twin front rest rest' (scanner.pushHere kind) (other.pushHere kind) :=
  twin.push kind twin.column

/-- Both scanners read a part of the front as a token. -/
theorem emit (twin : Twin front rest rest' scanner other) (kind : TokenKind) {count : Nat}
    (within : count ≤ front.length) :
    Twin (front.drop count) rest rest' (scanner.emit kind count) (other.emit kind count) := by
  unfold Scanner.emit
  rw [twin.unread, twin.unreadOther, List.take_append_of_le_length within,
    List.take_append_of_le_length within]
  exact ((twin.drop within).right _).push kind twin.column

theorem twins_emit (twin : Twin front rest rest' scanner other) (kind : TokenKind) {count : Nat}
    (within : count ≤ front.length) {limit : Nat} (fits : front.length ≤ limit) :
    Twins limit rest rest' (scanner.emit kind count) (other.emit kind count) :=
  (twin.emit kind within).twins (Nat.le_trans (List.drop_suffix count front).length_le fits)

end Twin

end Scanner

/-! ### Rules in two texts -/

namespace Computing.Both

variable {ε α α' β β' : Type} {values : α → α' → Prop} {valuesNext : β → β' → Prop}
  {faults : ε → ε → Prop} {first : Except ε α} {other : Except ε α'}

theorem bind (both : Both values faults first other) {next : α → Except ε β}
    {otherNext : α' → Except ε β'}
    (following : ∀ value value', values value value' →
      Both valuesNext faults (next value) (otherNext value')) :
    Both valuesNext faults (first >>= next) (other >>= otherNext) := by
  cases both with
  | ok related => exact following _ _ related
  | error related => exact .error related

theorem throw_bind {fault fault' : ε} (related : faults fault fault') {next : α → Except ε β}
    {otherNext : α' → Except ε β'} :
    Both valuesNext faults (throw fault >>= next) (throw fault' >>= otherNext) :=
  .error related

end Computing.Both

theorem Computing.rel_bind {α α' β β' : Type} {values : α → α' → Prop}
    {valuesNext : β → β' → Prop} {found : Option α} {other : Option α'}
    (first : Option.Rel values found other) {next : α → Option β} {otherNext : α' → Option β'}
    (following : ∀ value value', values value value' →
      Option.Rel valuesNext (next value) (otherNext value')) :
    Option.Rel valuesNext (found.bind next) (other.bind otherNext) := by
  cases first with
  | none => exact .none
  | some related => exact following _ _ related

open Scanner

/-- Both computations give the same value and come to twins, or fail for the same reason. -/
def Scanning.Mirrored (limit : Nat) (rest rest' : List Char) {α : Type} (action other : Scanning α)
    (scanner scanner' : Scanner) : Prop :=
  Matches (Twins limit rest rest') (fun value value' => value' = value) SameReason (action scanner)
    (other scanner')

namespace Scanning.Mirrored

variable {limit : Nat} {rest rest' : List Char} {α β : Type} {action other : Scanning α}
  {next otherNext : α → Scanning β} {scanner scanner' : Scanner}

theorem pure (twins : Twins limit rest rest' scanner scanner') (value : α) :
    Mirrored limit rest rest' (pure value) (pure value) scanner scanner' :=
  ⟨rfl, twins⟩

theorem throw (twins : Twins limit rest rest' scanner scanner')
    {fault fault' : Diagnostic TokenFault} (same : SameReason fault fault') :
    Mirrored limit rest rest' (MonadExcept.throw fault : Scanning α) (MonadExcept.throw fault')
      scanner scanner' :=
  ⟨same, twins⟩

/-- The second part, where what the first one gives is known. -/
theorem bind_known (first : Mirrored limit rest rest' action other scanner scanner')
    (second : ∀ value middle middle', action scanner = .ok value middle →
      other scanner' = .ok value middle' → Twins limit rest rest' middle middle' →
        Mirrored limit rest rest' (next value) (otherNext value) middle middle') :
    Mirrored limit rest rest' (action >>= next) (other >>= otherNext) scanner scanner' := by
  refine Matches.bind_within (fun _ _ twins => twins) first ?_
  rintro value _ middle middle' read read' rfl twins
  exact second _ middle middle' read read' twins

theorem bind (first : Mirrored limit rest rest' action other scanner scanner')
    (second : ∀ value middle middle', Twins limit rest rest' middle middle' →
      Mirrored limit rest rest' (next value) (otherNext value) middle middle') :
    Mirrored limit rest rest' (action >>= next) (other >>= otherNext) scanner scanner' :=
  bind_known first fun value middle middle' _ _ => second value middle middle'

theorem get_bind {next otherNext : Scanner → Scanning β}
    (each : Mirrored limit rest rest' (next scanner) (otherNext scanner') scanner scanner') :
    Mirrored limit rest rest' (get >>= next) (get >>= otherNext) scanner scanner' :=
  each

theorem set {changed changed' : Scanner} (twins : Twins limit rest rest' changed changed') :
    Mirrored limit rest rest' (MonadStateOf.set changed : Scanning Unit)
      (MonadStateOf.set changed') scanner scanner' :=
  ⟨rfl, twins⟩

theorem set_bind {next otherNext : Unit → Scanning β} {changed changed' : Scanner}
    (each : Mirrored limit rest rest' (next ()) (otherNext ()) changed changed') :
    Mirrored limit rest rest' (MonadStateOf.set changed >>= next)
      (MonadStateOf.set changed' >>= otherNext) scanner scanner' :=
  each

theorem modify_bind {next otherNext : Unit → Scanning β} {change : Scanner → Scanner}
    (each : Mirrored limit rest rest' (next ()) (otherNext ()) (change scanner) (change scanner')) :
    Mirrored limit rest rest' (modify change >>= next) (modify change >>= otherNext) scanner
      scanner' :=
  each

theorem mono {more : Nat} (mirrored : Mirrored limit rest rest' action other scanner scanner')
    (less : limit ≤ more) : Mirrored more rest rest' action other scanner scanner' :=
  Matches.mono mirrored (fun _ _ => id) (fun _ _ => id) fun _ _ twins => twins.mono less

end Scanning.Mirrored

theorem mirrored_repeatRule {limit : Nat} {rest rest' : List Char} {rule rule' : Scanning Bool}
    (mirrors : ∀ scanner other, Twins limit rest rest' scanner other →
      Scanning.Mirrored limit rest rest' rule rule' scanner other) (budget : Nat)
    {scanner other : Scanner} (twins : Twins limit rest rest' scanner other) :
    Scanning.Mirrored limit rest rest' (repeatRule rule budget) (repeatRule rule' budget) scanner
      other := by
  induction budget generalizing scanner other with
  | zero => exact .pure twins ()
  | succ budget ih =>
      refine (mirrors _ _ twins).bind fun matched _ _ twins => ?_
      cases matched with
      | false => exact .pure twins ()
      | true => exact ih twins

/-- The rule does not look behind the line on which a scanner is. -/
def SimpleRule.Mirrors (rule : SimpleRule) : Prop :=
  ∀ ⦃front rest rest' : List Char⦄ ⦃scanner other : Scanner⦄, Spaced rest rest' →
    Twin front rest rest' scanner other →
      Option.Rel (Twins front.length rest rest') (rule scanner) (rule other)

/-- The rule does not look behind the line on which a scanner is. -/
def CheckedRule.Mirrors (rule : CheckedRule) : Prop :=
  ∀ ⦃front rest rest' : List Char⦄ ⦃scanner other : Scanner⦄, Spaced rest rest' →
    Twin front rest rest' scanner other →
      Both (Option.Rel (Twins front.length rest rest')) SameReason (rule scanner) (rule other)

section

variable {front rest rest' : List Char} {limit : Nat} {scanner other : Scanner}

theorem SimpleRule.mirrored {rule : SimpleRule} (twins : Twins limit rest rest' scanner other)
    (found : Option.Rel (Twins limit rest rest') (rule scanner) (rule other)) :
    Scanning.Mirrored limit rest rest' rule.run rule.run scanner other := by
  unfold Scanning.Mirrored SimpleRule.run
  revert found
  cases rule scanner <;> cases rule other <;> rintro ⟨⟩
  · exact ⟨rfl, twins⟩
  · next related => exact ⟨rfl, related⟩

theorem CheckedRule.mirrored {rule : CheckedRule} (twins : Twins limit rest rest' scanner other)
    (found : Both (Option.Rel (Twins limit rest rest')) SameReason (rule scanner) (rule other)) :
    Scanning.Mirrored limit rest rest' rule.run rule.run scanner other := by
  unfold Scanning.Mirrored CheckedRule.run
  revert found
  generalize rule scanner = result
  generalize rule other = result'
  rintro (related | same)
  · cases related with
    | some related => exact ⟨rfl, related⟩
    | none => exact ⟨rfl, twins⟩
  · exact ⟨same, twins⟩

end

end Offside
