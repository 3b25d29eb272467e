import Offside.Proofs.Translation.Brackets

/-!
# Names, keywords and the layout in a text that starts at another position

The rules for one token count from where they are. The layout goes back to the first column, but
only behind a newline, where columns are not moved.
-/

namespace Offside

open Computing Scanner Text

variable {start : Position}

namespace Rule

/-! ### Names and signs -/

theorem movesTo_tag : SimpleRule.MovesTo start tag := by
  intro scanner
  unfold tag
  rw [unread_movedTo]
  split
  · split
    · simp
    · rfl
  · rfl

theorem movesTo_slash : SimpleRule.MovesTo start slash := by
  intro scanner
  unfold slash
  rw [unread_movedTo]
  split
  · simp
  · rfl

theorem movesTo_colon : SimpleRule.MovesTo start colon := by
  intro scanner
  unfold colon
  rw [unread_movedTo]
  split
  · dsimp only
    split
    · rfl
    · simp
  · rfl

theorem movesTo_id : CheckedRule.MovesTo start id := by
  intro scanner
  unfold id
  rw [unread_movedTo]
  split
  · dsimp only
    split
    · rfl
    · simp [moveExcept]
  · rfl

theorem movesTo_className : CheckedRule.MovesTo start className := by
  intro scanner
  unfold className
  rw [unread_movedTo]
  split
  · dsimp only
    split
    · simp [moveExcept]
    · split
      · rfl
      · rfl
  · rfl

/-! ### Keywords -/

theorem movesTo_endInterpolation : SimpleRule.MovesTo start endInterpolation := by
  intro scanner
  unfold endInterpolation
  rw [unread_movedTo, interpolated_movedTo]
  split
  · rfl
  · rfl

theorem movesTo_keywordLine (keyword : String) (kind : TokenKind) :
    SimpleRule.MovesTo start (keywordLine keyword kind) := by
  intro scanner
  unfold keywordLine
  rw [unread_movedTo]
  cases afterKeyword? keyword scanner.unread with
  | none => rfl
  | some rest =>
      dsimp only [Option.bind_eq_bind, Option.bind_some]
      rw [endOfLine?_movedTo]
      cases scanner.endOfLine? keyword.toList rest kind with
      | none => rfl
      | some found => rfl

theorem movesTo_doctype : SimpleRule.MovesTo start doctype := by
  intro scanner
  unfold doctype
  rw [unread_movedTo]
  split
  · simp
  · rfl

theorem movesTo_defaultKeyword : CheckedRule.MovesTo start defaultKeyword := by
  intro scanner
  unfold defaultKeyword
  rw [movesTo_keywordLine]
  cases keywordLine "default" .default scanner with
  | some next => rfl
  | none =>
      rw [unread_movedTo]
      dsimp only [Option.map_none]
      split
      · rfl
      · rfl

theorem movesTo_namedBlock (keyword : String) (afterBlock : Bool) (mode : BlockMode) :
    SimpleRule.MovesTo start (namedBlock keyword afterBlock mode) := by
  intro scanner
  unfold namedBlock
  rw [unread_movedTo]
  cases blockHead? keyword afterBlock scanner.unread with
  | none => rfl
  | some found =>
      dsimp only [Option.bind_eq_bind, Option.bind_some]
      split
      · rfl
      · rw [position_movedTo, Scanner.right_movedTo, push_movedTo, Scanner.right_movedTo]
        rfl

theorem movesTo_mixin : SimpleRule.MovesTo start mixin := by
  intro scanner
  unfold mixin
  rw [unread_movedTo]
  cases keywordSpaces? "mixin" scanner.unread with
  | none => rfl
  | some found =>
      dsimp only [Option.bind_eq_bind, Option.bind_some]
      split
      · rfl
      · simp

/-! ### Lines -/

theorem movesTo_blankLine : SimpleRule.MovesTo start blankLine := by
  intro scanner
  unfold blankLine
  rw [unread_movedTo]
  split
  · split
    · rw [nextLine_movedTo]
      rfl
    · rfl
  · rfl

end Rule

/-- A step that goes along with the scanner is taken again and again. -/
theorem Scanner.foldl_movedTo {α : Type} (step : Scanner → Scanner) (holds : Scanner → Prop)
    (moves : ∀ scanner, holds scanner →
      step (scanner.movedTo start) = (step scanner).movedTo start)
    (keeps : ∀ scanner, holds scanner → holds (step scanner)) (entries : List α)
    {scanner : Scanner} (given : holds scanner) :
    entries.foldl (fun left _ => step left) (scanner.movedTo start) =
      (entries.foldl (fun left _ => step left) scanner).movedTo start := by
  induction entries generalizing scanner with
  | nil => rfl
  | cons entry rest ih =>
      rw [List.foldl_cons, moves scanner given]
      exact ih (keeps scanner given)

theorem Rule.movesTo_endOfInput : CheckedRule.MovesTo start endOfInput := by
  intro scanner
  unfold endOfInput
  rw [unread_movedTo, interpolated_movedTo, levels_movedTo]
  split
  · split
    · rfl
    · rw [foldl_movedTo (·.pushHere .outdent) (fun _ => True) (fun _ _ => rfl)
        (fun _ given => given) scanner.levels True.intro]
      rfl
  · rfl

/-! ### Indentation -/

section

variable {scanner : Scanner}

/-- The tokens for leaving levels stand below the first line, in the first column. -/
theorem Scanner.pushOutdent_movedTo (below : scanner.position.line ≠ 0) :
    (scanner.movedTo start).pushOutdent = scanner.pushOutdent.movedTo start := by
  simp [pushOutdent, movedTo, push, Position.movedTo_of_ne_zero _ below, Token.movedTo,
    Scanner.top]

/-- Below the first line of the text the columns are those of the indentation. -/
theorem Scanner.align_movedTo (below : scanner.position.line ≠ 0) (width : Nat) :
    (scanner.movedTo start).align width =
      moveExcept start (·.movedTo start) (scanner.align width) := by
  have onLine (column : Nat) : (⟨(scanner.movedTo start).position.line, column⟩ : Position) =
      (⟨scanner.position.line, column⟩ : Position).movedTo start :=
    (Position.movedTo_of_ne_zero start below column).symm
  unfold align
  rw [top_movedTo, levels_movedTo]
  dsimp only
  split
  · split
    · rfl
    · next closed levels _ =>
        have noted : ({ scanner.movedTo start with levels := levels } : Scanner).note
            (.outdented closed width) =
          (({ scanner with levels := levels } : Scanner).note (.outdented closed width)).movedTo
            start := rfl
        rw [noted]
        exact congrArg Except.ok (foldl_movedTo pushOutdent
          (·.position.line ≠ 0) (fun _ => pushOutdent_movedTo) (fun _ => id) _ below)
  · split
    · rw [onLine]
      rfl
    · rw [onLine]
      rfl

theorem Rule.movesTo_indentation : CheckedRule.MovesTo start indentation := by
  intro scanner
  unfold indentation
  rw [measure?_movedTo]
  cases scanner.measure? with
  | none => rfl
  | some found =>
      rcases found with ⟨width, measured⟩
      dsimp only [Option.map_some]
      rw [nextLine_movedTo, drop_movedTo, unread_movedTo]
      split
      · rfl
      · rfl
      · rfl
      · have below : (measured.nextLine.drop (width + 1)).position.line ≠ 0 := Nat.succ_ne_zero _
        exact bind_eq_moveExcept (align_movedTo below width) fun aligned => rfl

end

end Offside
