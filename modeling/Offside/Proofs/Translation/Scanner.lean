import Offside.Proofs.Computation
import Offside.Token.Run

/-!
# A text that starts at another position

A text may start at any line and column. The positions of its first line are then further to the
right, and those of all lines are further down. What is done with a scanner goes along with such a
change: it counts lines and columns from where it is, and at most goes back to the first column of a
line that is not the first one.
-/

namespace Offside

open Computing

/-! ### What is moved -/

/-- The position in a text that starts here, when it is counted from line zero and column zero of
the text. -/
def Position.movedTo (position start : Position) : Position :=
  ⟨start.line + position.line, (if position.line = 0 then start.column else 0) + position.column⟩

/-- The same place of the text when it starts at a position. -/
def Span.movedTo (span : Span) (start : Position) : Span :=
  .start span.file (span.position.movedTo start)

/-- The token in a text that starts at a position. -/
def Token.movedTo (token : Token) (start : Position) : Token :=
  { token with span := token.span.movedTo start, stop := token.stop.movedTo start }

/-- The fault in a text that starts at a position. -/
def Diagnostic.movedTo {κ : Type} (fault : Diagnostic κ) (start : Position) : Diagnostic κ :=
  { fault with span := fault.span.movedTo start }

/-- The scanner of a text that starts at a position. -/
def Scanner.movedTo (scanner : Scanner) (start : Position) : Scanner :=
  { scanner with
    position := scanner.position.movedTo start
    found := scanner.found.map (·.movedTo start) }

/-- A value or a fault in a text that starts at a position. -/
def Computing.moveExcept {α : Type} (start : Position) (move : α → α) :
    Except (Diagnostic TokenFault) α → Except (Diagnostic TokenFault) α
  | .ok value => .ok (move value)
  | .error fault => .error (fault.movedTo start)

/-- The result of a computation in a text that starts at a position. -/
def Computing.moveResult {α : Type} (start : Position) :
    EStateM.Result (Diagnostic TokenFault) Scanner α →
      EStateM.Result (Diagnostic TokenFault) Scanner α
  | .ok value scanner => .ok value (scanner.movedTo start)
  | .error fault scanner => .error (fault.movedTo start) (scanner.movedTo start)

/-- In a text that starts at a position the rule does the same there. -/
def SimpleRule.MovesTo (start : Position) (rule : SimpleRule) : Prop :=
  ∀ scanner, rule (scanner.movedTo start) = (rule scanner).map (·.movedTo start)

/-- In a text that starts at a position the rule does the same there. -/
def CheckedRule.MovesTo (start : Position) (rule : CheckedRule) : Prop :=
  ∀ scanner, rule (scanner.movedTo start) =
    moveExcept start (Option.map (·.movedTo start)) (rule scanner)

/-- Two parts of which both are moved. -/
theorem Computing.bind_eq_moveExcept {α β : Type} {start : Position} {move : α → α}
    {moveNext : β → β} {moved found : Except (Diagnostic TokenFault) α}
    {movedNext next : α → Except (Diagnostic TokenFault) β}
    (first : moved = moveExcept start move found)
    (second : ∀ value, movedNext (move value) = moveExcept start moveNext (next value)) :
    (moved >>= movedNext) = moveExcept start moveNext (found >>= next) := by
  subst first
  cases found with
  | error fault => rfl
  | ok value => exact second value

/-! ### Positions -/

namespace Position

variable (start position : Position)

@[simp]
theorem line_movedTo : (position.movedTo start).line = start.line + position.line := rfl

@[simp]
theorem right_movedTo (count : Nat) :
    (position.movedTo start).right count = (position.right count).movedTo start :=
  congrArg (Position.mk _) (Nat.add_assoc ..)

@[simp]
theorem after_movedTo (character : Char) :
    (position.movedTo start).after character = (position.after character).movedTo start := by
  unfold after
  split
  · simp [movedTo, Nat.add_assoc]
  · exact right_movedTo start position 1

@[simp]
theorem past_movedTo (text : List Char) :
    (position.movedTo start).past text = (position.past text).movedTo start := by
  induction text generalizing position with
  | nil => rfl
  | cons character rest ih => simp [ih]

/-- On the lines below the first one columns do not change. -/
theorem movedTo_of_ne_zero {line : Nat} (below : line ≠ 0) (column : Nat) :
    (⟨line, column⟩ : Position).movedTo start = ⟨start.line + line, column⟩ := by
  simp [movedTo, below]

end Position

@[simp]
theorem Span.start_movedTo (file : Option String) (start position : Position) :
    (Span.start file position).movedTo start = .start file (position.movedTo start) := rfl

/-! ### Scanners -/

namespace Scanner

variable (start : Position) (scanner : Scanner)

@[simp]
theorem unread_movedTo : (scanner.movedTo start).unread = scanner.unread := rfl

@[simp]
theorem interpolated_movedTo : (scanner.movedTo start).interpolated = scanner.interpolated := rfl

@[simp]
theorem position_movedTo :
    (scanner.movedTo start).position = scanner.position.movedTo start := rfl

@[simp]
theorem levels_movedTo : (scanner.movedTo start).levels = scanner.levels := rfl

@[simp]
theorem top_movedTo : (scanner.movedTo start).top = scanner.top := rfl

@[simp]
theorem unit_movedTo : (scanner.movedTo start).unit = scanner.unit := rfl

@[simp]
theorem markersAllowed_movedTo :
    (scanner.movedTo start).markersAllowed = scanner.markersAllowed := rfl

@[simp]
theorem ended_movedTo : (scanner.movedTo start).ended = scanner.ended := rfl

@[simp]
theorem faultAt_movedTo (position : Position) (cause : TokenFault) :
    (scanner.movedTo start).faultAt (position.movedTo start) cause =
      (scanner.faultAt position cause).movedTo start := rfl

@[simp]
theorem fault_movedTo (cause : TokenFault) :
    (scanner.movedTo start).fault cause = (scanner.fault cause).movedTo start := rfl

@[simp]
theorem right_movedTo (count : Nat) :
    (scanner.movedTo start).right count = (scanner.right count).movedTo start := by
  simp [right, movedTo]

@[simp]
theorem past_movedTo (text : List Char) :
    (scanner.movedTo start).past text = (scanner.past text).movedTo start := by
  simp [past, movedTo]

@[simp]
theorem nextLine_movedTo :
    (scanner.movedTo start).nextLine = scanner.nextLine.movedTo start := by
  simp [nextLine, movedTo, Position.movedTo, Nat.add_assoc]

@[simp]
theorem drop_movedTo (count : Nat) :
    (scanner.movedTo start).drop count = (scanner.drop count).movedTo start := rfl

@[simp]
theorem push_movedTo (kind : TokenKind) (position : Position) :
    (scanner.movedTo start).push kind (position.movedTo start) =
      (scanner.push kind position).movedTo start := rfl

@[simp]
theorem emit_movedTo (kind : TokenKind) (count : Nat) :
    (scanner.movedTo start).emit kind count = (scanner.emit kind count).movedTo start := by
  simp [emit]

theorem bracketed_movedTo (opening : List Char) (close : Char) (text : List Char) :
    (scanner.movedTo start).bracketed opening close text =
      moveExcept start (fun cut => cut) (scanner.bracketed opening close text) := by
  unfold bracketed
  split
  · rfl
  · simp [moveExcept]
  · simp [moveExcept]

theorem endOfLine?_movedTo (matched rest : List Char) (kind : TokenKind) :
    (scanner.movedTo start).endOfLine? matched rest kind =
      (scanner.endOfLine? matched rest kind).map fun (token, next) =>
        (token.movedTo start, next.movedTo start) := by
  unfold endOfLine?
  split
  · simp [Token.movedTo, movedTo]
  · split
    · simp [Token.movedTo, movedTo]
    · simp [Token.movedTo, movedTo]
    · rfl

theorem measure?_movedTo :
    (scanner.movedTo start).measure? =
      scanner.measure?.map fun (width, measured) => (width, measured.movedTo start) := by
  unfold measure?
  rw [unread_movedTo, unit_movedTo]
  split
  · split
    · rfl
    · dsimp only
      split
      · rfl
      · split <;> rfl
  · rfl

end Scanner

end Offside
