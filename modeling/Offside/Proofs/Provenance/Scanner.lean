import Offside.Proofs.Computation
import Offside.Token.Scanner

/-!
# Where a scanner can be

A scanner moves down the lines of its text: it never goes back, and never past the last line, nor
further to the right than there is text. All tokens that it adds stand on the lines between, and so
does a fault if it finds one. What was noted before makes no difference to what it does.
-/

namespace Offside

open Computing

theorem Position.line_past (position : Position) (text : List Char) :
    (position.past text).line = position.line + text.count '\n' := by
  induction text generalizing position with
  | nil => rfl
  | cons character rest ih =>
      rw [Position.past_cons, ih, Position.after]
      split
      · next newline => simp only [newline, List.count_cons_self]; omega
      · next other => rw [List.count_cons_of_ne other]; rfl

/-- A position is neither further down than a corner nor further to the right. -/
structure Position.Within (corner position : Position) : Prop where
  line : position.line ≤ corner.line
  column : position.column ≤ corner.column

theorem Position.Within.mono {corner more position : Position} (within : corner.Within position)
    (further : more.Within corner) : more.Within position :=
  ⟨Nat.le_trans within.line further.line, Nat.le_trans within.column further.column⟩

theorem Position.column_past_le (position : Position) (text : List Char) :
    (position.past text).column ≤ position.column + text.length := by
  induction text generalizing position with
  | nil => exact Nat.le_refl _
  | cons character rest ih =>
      have first : (position.after character).column ≤ position.column + 1 := by
        unfold Position.after
        split
        · exact Nat.le_add_left _ _
        · exact Nat.le_refl _
      have others := ih (position.after character)
      rw [Position.past_cons, List.length_cons]
      omega

theorem Position.past_eq_right {position : Position} {text : List Char} (oneLine : '\n' ∉ text) :
    position.past text = position.right text.length := by
  induction text generalizing position with
  | nil => rfl
  | cons character rest ih =>
      rw [List.mem_cons, not_or] at oneLine
      have same : position.after character = position.right 1 :=
        if_neg fun newline => oneLine.1 newline.symm
      rw [past_cons, ih oneLine.2, same]
      simp only [right, List.length_cons, mk.injEq, true_and]
      omega

/-- A token of a file that stands between a line and a corner. -/
structure Token.StandsWithin (file : Option String) (line : Nat) (corner : Position)
    (token : Token) : Prop where
  file : token.span.file = file
  forward : line ≤ token.span.line
  start : corner.Within token.span.position
  stop : corner.Within token.stop

namespace Scanner

variable {corner more : Position} {before middle after later : Scanner}

/-- The last line of the text that is being read. -/
def lastLine (scanner : Scanner) : Nat :=
  scanner.position.line + scanner.unread.count '\n'

/-- A column to which the text that is being read does not come. Each character counts twice: a
scanner moves over the bracket that closes an interpolated tag without reading it, but it has read
two characters for the bracket that opens the tag. -/
def lastColumn (scanner : Scanner) : Nat :=
  scanner.position.column + 2 * scanner.unread.length

/-- The text that is being read does not come past a corner. -/
def HasRoom (corner : Position) (scanner : Scanner) : Prop :=
  scanner.lastLine ≤ corner.line ∧ scanner.lastColumn ≤ corner.column

/-- The corner to which the text that is being read comes at most. -/
def farCorner (scanner : Scanner) : Position :=
  ⟨scanner.lastLine, scanner.lastColumn⟩

theorem hasRoom_farCorner (scanner : Scanner) : scanner.HasRoom scanner.farCorner :=
  ⟨Nat.le_refl _, Nat.le_refl _⟩

/-- From one scanner to a later one, which has not come past a corner; the tokens that are added on
the way stand on the lines between. -/
structure GoesTo (corner : Position) (before after : Scanner) : Prop where
  file : after.file = before.file
  source : after.source = before.source
  forward : before.position.line ≤ after.position.line
  room : after.HasRoom corner
  found : ∃ added, after.found = added ++ before.found ∧
    ∀ token ∈ added, token.StandsWithin before.file before.position.line corner

/-- A fault stands between a scanner and a corner, and comes with the text. -/
structure Reports (corner : Position) (scanner : Scanner) (fault : Diagnostic TokenFault) :
    Prop where
  file : fault.span.file = scanner.file
  source : fault.source = some scanner.source
  forward : scanner.position.line ≤ fault.span.line
  room : corner.Within fault.span.position

theorem Reports.mono {scanner : Scanner} {fault : Diagnostic TokenFault}
    (reports : Reports corner scanner fault) (further : more.Within corner) :
    Reports more scanner fault :=
  ⟨reports.file, reports.source, reports.forward, reports.room.mono further⟩

/-- The scanner with a text put back in front of what is unread. -/
def putBack (scanner : Scanner) (text : List Char) : Scanner :=
  { scanner with unread := text ++ scanner.unread }

namespace HasRoom

theorem mono (room : before.HasRoom corner) (further : more.Within corner) : before.HasRoom more :=
  ⟨Nat.le_trans room.1 further.line, Nat.le_trans room.2 further.column⟩

theorem within (room : before.HasRoom corner) : corner.Within before.position :=
  ⟨Nat.le_trans (Nat.le_add_right _ _) room.1, Nat.le_trans (Nat.le_add_right _ _) room.2⟩

/-- On a line a scanner moves to the right no more than by what it reads, counted twice. -/
theorem read (room : before.HasRoom corner) (line : after.position.line = before.position.line)
    (unread : after.unread <:+ before.unread) (column : after.lastColumn ≤ before.lastColumn) :
    after.HasRoom corner := by
  have fewer := unread.sublist.count_le '\n'
  have lines := room.1
  unfold lastLine at lines
  refine ⟨?_, Nat.le_trans column room.2⟩
  unfold lastLine
  omega

theorem of_putBack {text : List Char} (room : (before.putBack text).HasRoom corner) :
    before.HasRoom corner := by
  refine room.read rfl (List.suffix_append text _) ?_
  simp only [lastColumn, putBack, List.length_append]
  omega

end HasRoom

namespace GoesTo

theorem refl (room : before.HasRoom corner) : GoesTo corner before before :=
  ⟨rfl, rfl, Nat.le_refl _, room, [], rfl, by simp⟩

theorem trans (first : GoesTo corner before middle) (second : GoesTo corner middle after) :
    GoesTo corner before after := by
  rcases first.found with ⟨earlier, foundMiddle, standEarlier⟩
  rcases second.found with ⟨added, foundAfter, stand⟩
  refine ⟨second.file.trans first.file, second.source.trans first.source,
    Nat.le_trans first.forward second.forward, second.room, added ++ earlier, ?_, ?_⟩
  · rw [foundAfter, foundMiddle, List.append_assoc]
  · refine List.forall_mem_append.mpr ⟨fun token found => ?_, standEarlier⟩
    have stands := stand token found
    exact ⟨stands.file.trans first.file, Nat.le_trans first.forward stands.forward, stands.start,
      stands.stop⟩

theorem mono (goes : GoesTo corner before after) (further : more.Within corner) :
    GoesTo more before after := by
  rcases goes.found with ⟨added, found, stand⟩
  refine ⟨goes.file, goes.source, goes.forward, goes.room.mono further, added, found, ?_⟩
  intro token isAdded
  have stands := stand token isAdded
  exact ⟨stands.file, stands.forward, stands.start.mono further, stands.stop.mono further⟩

theorem reports (first : GoesTo corner before middle) {fault : Diagnostic TokenFault}
    (shown : Reports corner middle fault) : Reports corner before fault :=
  ⟨shown.file.trans first.file, shown.source.trans (congrArg some first.source),
    Nat.le_trans first.forward shown.forward, shown.room⟩

/-- The later scanner may change in everything but its tokens, as long as it goes forward. -/
theorem move (goes : GoesTo corner before after) (file : later.file = after.file)
    (source : later.source = after.source) (found : later.found = after.found)
    (forward : after.position.line ≤ later.position.line) (room : later.HasRoom corner) :
    GoesTo corner before later :=
  goes.trans ⟨file, source, forward, room, [], by simpa using found, by simp⟩

/-- The later scanner may read on without moving to another line. -/
theorem read (goes : GoesTo corner before after) (file : later.file = after.file)
    (source : later.source = after.source) (found : later.found = after.found)
    (line : later.position.line = after.position.line) (unread : later.unread <:+ after.unread)
    (column : later.lastColumn ≤ after.lastColumn) :
    GoesTo corner before later :=
  goes.move file source found (Nat.le_of_eq line.symm) (goes.room.read line unread column)

/-- The later scanner may read on without moving. -/
theorem keep (goes : GoesTo corner before after) (file : later.file = after.file)
    (source : later.source = after.source) (found : later.found = after.found)
    (position : later.position = after.position) (unread : later.unread <:+ after.unread) :
    GoesTo corner before later := by
  have shorter := unread.length_le
  refine goes.read file source found (congrArg Position.line position) unread ?_
  unfold lastColumn
  rw [position]
  omega

/-- Behind a newline the later scanner goes on at the start of the next line. -/
theorem nextLine (goes : GoesTo corner before after) (file : later.file = after.file)
    (source : later.source = after.source) (found : later.found = after.found)
    (position : later.position = ⟨after.position.line + 1, 1⟩) {rest : List Char}
    (unread : after.unread = '\n' :: rest) (left : later.unread <:+ rest) :
    GoesTo corner before later := by
  have fewer := left.sublist.count_le '\n'
  have shorter := left.length_le
  rcases goes.room with ⟨line, column⟩
  simp only [lastLine, lastColumn, unread, List.count_cons_self, List.length_cons] at line column
  refine goes.move file source found (position ▸ Nat.le_succ _) ⟨?_, ?_⟩
  · simp only [lastLine, position]
    omega
  · simp only [lastColumn, position]
    omega

theorem push (goes : GoesTo corner before after) {start : Position} (kind : TokenKind)
    (forward : before.position.line ≤ start.line) (within : corner.Within start) :
    GoesTo corner before (after.push kind start) := by
  rcases goes.found with ⟨added, found, stand⟩
  refine ⟨goes.file, goes.source, goes.forward, goes.room,
    ⟨kind, .start after.file start, after.position⟩ :: added, congrArg _ found, ?_⟩
  exact List.forall_mem_cons.mpr ⟨⟨goes.file, forward, within, goes.room.within⟩, stand⟩

theorem pushHere (goes : GoesTo corner before after) (kind : TokenKind) :
    GoesTo corner before (after.pushHere kind) :=
  goes.push kind goes.forward goes.room.within

/-- A token that starts where the earlier scanner was. -/
theorem pushFrom (goes : GoesTo corner before after) (room : before.HasRoom corner)
    (kind : TokenKind) : GoesTo corner before (after.push kind before.position) :=
  goes.push kind (Nat.le_refl _) room.within

end GoesTo

theorem goesTo_emit (room : before.HasRoom corner) (kind : TokenKind) (count : Nat) :
    GoesTo corner before (before.emit kind count) := by
  have moved : GoesTo corner before
      ((before.drop count).right (before.unread.take count).length) := by
    refine (GoesTo.refl room).read rfl rfl rfl rfl (List.drop_suffix count before.unread) ?_
    simp only [lastColumn, right, drop, Position.right, List.length_take, List.length_drop]
    omega
  exact moved.pushFrom room kind

theorem reports_faultAt {position : Position} (forward : before.position.line ≤ position.line)
    (room : corner.Within position) (cause : TokenFault) :
    Reports corner before (before.faultAt position cause) :=
  ⟨rfl, rfl, forward, room⟩

theorem reports_fault (room : before.HasRoom corner) (cause : TokenFault) :
    Reports corner before (before.fault cause) :=
  reports_faultAt (Nat.le_refl _) room.within cause

/-! ### Notes -/

/-- The scanner with notes in front of its own. -/
def logged (log : Array Event) (scanner : Scanner) : Scanner :=
  { scanner with events := log ++ scanner.events }

section

variable (log : Array Event) (scanner : Scanner)

@[simp]
theorem file_logged : (scanner.logged log).file = scanner.file := rfl

@[simp]
theorem interpolated_logged : (scanner.logged log).interpolated = scanner.interpolated := rfl

@[simp]
theorem unread_logged : (scanner.logged log).unread = scanner.unread := rfl

@[simp]
theorem position_logged : (scanner.logged log).position = scanner.position := rfl

@[simp]
theorem levels_logged : (scanner.logged log).levels = scanner.levels := rfl

@[simp]
theorem top_logged : (scanner.logged log).top = scanner.top := rfl

@[simp]
theorem unit_logged : (scanner.logged log).unit = scanner.unit := rfl

@[simp]
theorem markersAllowed_logged : (scanner.logged log).markersAllowed = scanner.markersAllowed := rfl

@[simp]
theorem ended_logged : (scanner.logged log).ended = scanner.ended := rfl

@[simp]
theorem fault_logged (cause : TokenFault) :
    (scanner.logged log).fault cause = scanner.fault cause := rfl

@[simp]
theorem bracketed_logged (opening : List Char) (close : Char) (text : List Char) :
    (scanner.logged log).bracketed opening close text = scanner.bracketed opening close text := rfl

theorem note_logged (event : Event) :
    (scanner.logged log).note event = (scanner.note event).logged log := by
  simp only [note, logged, Array.append_push]

/-- A step that keeps a property is taken again and again. -/
theorem foldl_logged {α : Type} {holds : Scanner → Prop} (log : Array Event)
    (step : Scanner → Scanner)
    (same : ∀ scanner, step (scanner.logged log) = (step scanner).logged log)
    (keeps : ∀ after, holds after → holds (step after)) (entries : List α)
    (started : holds after) :
    holds (entries.foldl (fun left _ => step left) after) ∧
      entries.foldl (fun left _ => step left) (after.logged log) =
        (entries.foldl (fun left _ => step left) after).logged log := by
  induction entries generalizing after with
  | nil => exact ⟨started, rfl⟩
  | cons entry rest ih =>
      simp only [List.foldl_cons, same]
      exact ih (keeps after started)

end

end Scanner

/-! ### Rules -/

section

variable {α β ε : Type}

/-- What is found is the same but for a change, and has a property. -/
structure Finds (change : α → α) (holds : α → Prop) (changed found : Option α) : Prop where
  same : changed = found.map change
  holds : ∀ value ∈ found, holds value

namespace Finds

variable {change : α → α} {holds : α → Prop}

theorem none : Finds change holds none none :=
  ⟨rfl, by simp⟩

theorem some {moved value : α} (same : moved = change value) (given : holds value) :
    Finds change holds (some moved) (some value) :=
  ⟨congrArg Option.some same, by simpa using given⟩

theorem bind {changed found : Option α} (first : Finds change holds changed found)
    {changeNext : β → β} {holdsNext : β → Prop} {changedNext next : α → Option β}
    (second : ∀ value, holds value →
      Finds changeNext holdsNext (changedNext (change value)) (next value)) :
    Finds changeNext holdsNext (changed >>= changedNext) (found >>= next) := by
  rcases first with ⟨rfl, inside⟩
  cases found with
  | none => exact none
  | some value => exact second value (inside value rfl)

end Finds

/-- What is found is the same but for a change, and has a property; or the fault that is found is
the same, and is allowed. -/
structure Checks (allowed : ε → Prop) (change : α → α) (holds : α → Prop)
    (changed found : Except ε α) : Prop where
  holds :
    match found with
    | .ok value => holds value
    | .error fault => allowed fault
  same : changed = found.map change

namespace Checks

variable {allowed : ε → Prop} {change : α → α} {holds : α → Prop}

theorem ok {moved value : α} (same : moved = change value) (given : holds value) :
    Checks allowed change holds (.ok moved) (.ok value) :=
  ⟨given, congrArg Except.ok same⟩

theorem error {fault : ε} (given : allowed fault) :
    Checks allowed change holds (.error fault) (.error fault) :=
  ⟨given, rfl⟩

theorem bind {changed found : Except ε α} (first : Checks allowed change holds changed found)
    {changeNext : β → β} {holdsNext : β → Prop} {changedNext next : α → Except ε β}
    (second : ∀ value, holds value →
      Checks allowed changeNext holdsNext (changedNext (change value)) (next value)) :
    Checks allowed changeNext holdsNext (changed >>= changedNext) (found >>= next) := by
  rcases first with ⟨inside, rfl⟩
  cases found with
  | error fault => exact error inside
  | ok value => exact second value inside

theorem mono {changed found : Except ε α} (checks : Checks allowed change holds changed found)
    {allowedMore : ε → Prop} {holdsMore : α → Prop}
    (faults : ∀ fault, allowed fault → allowedMore fault)
    (values : ∀ value, holds value → holdsMore value) :
    Checks allowedMore change holdsMore changed found := by
  rcases checks with ⟨inside, rfl⟩
  cases found with
  | error fault => exact error (faults fault inside)
  | ok value => exact ok rfl (values value inside)

theorem throw_bind {fault : ε} (given : allowed fault) {change : β → β} {holds : β → Prop}
    {changedNext next : α → Except ε β} :
    Checks allowed change holds (MonadExcept.throw fault >>= changedNext)
      (MonadExcept.throw fault >>= next) :=
  error given

end Checks

end

/-- From a scanner a rule goes to a later one, whatever was noted before. -/
def SimpleRule.Goes (rule : SimpleRule) : Prop :=
  ∀ (log : Array Event) (corner : Position) (scanner : Scanner), scanner.HasRoom corner →
    Finds (Scanner.logged log) (Scanner.GoesTo corner scanner) (rule (scanner.logged log))
      (rule scanner)

/-- From a scanner a rule goes to a later one, or it finds a fault on the way, whatever was noted
before. -/
def CheckedRule.Goes (rule : CheckedRule) : Prop :=
  ∀ (log : Array Event) (corner : Position) (scanner : Scanner), scanner.HasRoom corner →
    Checks (Scanner.Reports corner scanner) (Option.map (Scanner.logged log))
      (fun found => ∀ after ∈ found, Scanner.GoesTo corner scanner after)
      (rule (scanner.logged log)) (rule scanner)

namespace Checks

variable {allowed : Diagnostic TokenFault → Prop} {log : Array Event} {holds : Scanner → Prop}

theorem declined :
    Checks allowed (Option.map (Scanner.logged log)) (fun found => ∀ after ∈ found, holds after)
      (.ok none) (.ok none) :=
  ok rfl (by simp)

theorem matched {moved after : Scanner} (same : moved = after.logged log) (given : holds after) :
    Checks allowed (Option.map (Scanner.logged log)) (fun found => ∀ after ∈ found, holds after)
      (.ok (some moved)) (.ok (some after)) :=
  ok (congrArg some same) (by simpa using given)

end Checks

end Offside
