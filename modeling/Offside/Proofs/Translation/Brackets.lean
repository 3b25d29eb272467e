import Offside.Proofs.Provenance.Brackets
import Offside.Proofs.Translation.Scanner

/-!
# What stands in brackets in a text that starts at another position

The entries of an attribute list may go over several lines. Those on the first line of the text go
along with it, those below do not.
-/

namespace Offside

open Computing Scanner Text

variable {start : Position}

/-- The cursor in a text that starts at a position. -/
def AttributeCursor.movedTo (cursor : AttributeCursor) (start : Position) : AttributeCursor :=
  { cursor with position := cursor.position.movedTo start }

namespace AttributeCursor

@[simp]
theorem rest_movedTo (cursor : AttributeCursor) : (cursor.movedTo start).rest = cursor.rest := rfl

@[simp]
theorem position_movedTo (cursor : AttributeCursor) :
    (cursor.movedTo start).position = cursor.position.movedTo start := rfl

theorem mk_movedTo (rest : List Char) (position : Position) :
    (⟨rest, position.movedTo start⟩ : AttributeCursor) = movedTo ⟨rest, position⟩ start := rfl

@[simp]
theorem skip_movedTo (cursor : AttributeCursor) :
    (cursor.movedTo start).skip = cursor.skip.movedTo start := by
  simp [skip, movedTo]

end AttributeCursor

theorem readQuoted_movedTo (quote : Char) (text : List Char) (position : Position) :
    readQuoted quote text (position.movedTo start) =
      Prod.map id (·.movedTo start) (readQuoted quote text position) := by
  fun_induction readQuoted quote text position with
  | case1 => rfl
  | case2 escaped rest position value cursor read ih =>
      rw [readQuoted, Position.right_movedTo, ih, read]
      rfl
  | case3 => simp [readQuoted, AttributeCursor.movedTo]
  | case4 character rest position noEscape other value cursor read ih =>
      rw [readQuoted, if_neg other, Position.after_movedTo, ih, read]
      · rfl
      · exact noEscape

theorem readName_movedTo (cursor : AttributeCursor) :
    readName (cursor.movedTo start) =
      Prod.map id (Prod.map id (·.movedTo start)) (readName cursor) := by
  unfold readName
  rw [AttributeCursor.rest_movedTo, AttributeCursor.position_movedTo]
  split
  · rfl
  · split
    · dsimp only
      rw [Position.right_movedTo, Position.past_movedTo, Position.right_movedTo]
      split <;> rfl
    · dsimp only
      rw [Position.past_movedTo]
      rfl

theorem readValue_movedTo (cursor : AttributeCursor) :
    readValue (cursor.movedTo start) =
      Prod.map id (Prod.map id (·.movedTo start)) (readValue cursor) := by
  unfold readValue
  rw [AttributeCursor.rest_movedTo, AttributeCursor.position_movedTo]
  split
  · rfl
  · split
    · rw [Position.right_movedTo, readQuoted_movedTo]
      rfl
    · dsimp only
      rw [Position.past_movedTo]
      rfl

/-- One entry of an attribute list. -/
theorem attributeEntry_movedTo (scanner : Scanner) (text : List Char) :
    attributeEntry (scanner.movedTo start) text =
      moveExcept start (Prod.map (·.movedTo start) id) (attributeEntry scanner text) := by
  have finished (name : List Char) (value : AttributeValue) (position : Position)
      (last : AttributeCursor) :
      (pure ({ ({ scanner.movedTo start with position := (last.movedTo start).position }).push
            (.attributeEntry (String.ofList name) value) (position.movedTo start) with
              position := (last.movedTo start).skip.position }, (last.movedTo start).skip.rest) :
          Except (Diagnostic TokenFault) (Scanner × List Char)) =
        moveExcept start (Prod.map (·.movedTo start) id)
          (pure ({ ({ scanner with position := last.position }).push
            (.attributeEntry (String.ofList name) value) position with
              position := last.skip.position }, last.skip.rest)) := by
    rw [AttributeCursor.skip_movedTo]
    rfl
  unfold attributeEntry
  extract_lets moved entry
  have skipped : moved = entry.movedTo start :=
    AttributeCursor.skip_movedTo ⟨text, scanner.position⟩
  clear_value moved entry
  subst skipped
  rw [AttributeCursor.rest_movedTo, readName_movedTo]
  split
  · rfl
  rcases readName entry with ⟨nameQuote, name, behind⟩
  dsimp only [Prod.map, id]
  split
  · rfl
  split
  · rfl
  rw [AttributeCursor.skip_movedTo, AttributeCursor.rest_movedTo]
  -- With a value or without one, the entry ends in the same way.
  split
  case' h_1 rest _ =>
    rw [AttributeCursor.position_movedTo, Position.right_movedTo, AttributeCursor.mk_movedTo,
      AttributeCursor.skip_movedTo, readValue_movedTo]
    rcases readValue (AttributeCursor.skip ⟨rest, behind.skip.position.right 1⟩) with
      ⟨quote, value, last⟩
    dsimp only [Prod.map, id]
  case' h_2 =>
    generalize behind.skip = last
    dsimp only
  all_goals
    split
    · rw [AttributeCursor.rest_movedTo]
      split
      · split
        · rfl
        · exact finished ..
      · exact finished ..
    · exact finished ..

theorem attributeEntries_movedTo (scanner : Scanner) (budget : Nat) (text : List Char) :
    attributeEntries (scanner.movedTo start) budget text =
      moveExcept start (·.movedTo start) (attributeEntries scanner budget text) := by
  induction budget generalizing scanner text with
  | zero => rfl
  | succ budget ih =>
      cases text with
      | nil => rfl
      | cons first rest =>
          exact bind_eq_moveExcept (attributeEntry_movedTo scanner _) fun found =>
            ih found.1 found.2

namespace Rule

theorem movesTo_attributes : CheckedRule.MovesTo start attributes := by
  intro scanner
  unfold attributes
  rw [unread_movedTo]
  split
  · refine bind_eq_moveExcept (bracketed_movedTo start scanner _ _ _) fun (body, rest) => ?_
    dsimp only
    rw [right_movedTo, position_movedTo, push_movedTo]
    refine bind_eq_moveExcept (attributeEntries_movedTo
      { (scanner.right 1).push .startAttributes scanner.position with unread := rest } _ _)
      fun filled => ?_
    rw [right_movedTo, position_movedTo, push_movedTo]
    rfl
  · rfl

theorem movesTo_interpolation : CheckedRule.MovesTo start interpolation := by
  intro scanner
  unfold interpolation
  rw [unread_movedTo]
  split
  · refine bind_eq_moveExcept (bracketed_movedTo start scanner _ _ _) fun (body, rest) => ?_
    dsimp only
    rw [right_movedTo, past_movedTo, right_movedTo, position_movedTo, push_movedTo]
    rfl
  · rfl

theorem movesTo_call : CheckedRule.MovesTo start call := by
  intro scanner
  unfold call
  rw [unread_movedTo]
  split
  · have named (unread : List Char) (count : Nat) :
        ({ (scanner.movedTo start).right count with unread := unread } : Scanner) =
          ({ scanner.right count with unread := unread } : Scanner).movedTo start := by
      rw [right_movedTo]
      rfl
    dsimp only
    split
    · rfl
    rw [position_movedTo, named, push_movedTo]
    split
    · refine bind_eq_moveExcept (bracketed_movedTo start _ _ _ _) fun (body, others) => ?_
      dsimp only
      split
      · rfl
      · rw [right_movedTo, past_movedTo, right_movedTo, push_movedTo]
        rfl
    · rfl
  · rfl

end Rule

end Offside
