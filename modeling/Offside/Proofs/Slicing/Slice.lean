import Mathlib.Data.List.TakeWhile
import Offside.Bracket
import Offside.Text.Blank
import Offside.Text.Line
import Offside.Text.Word

/-!
# Slices by byte offset

A text is cut at offsets that count the bytes of its characters in UTF-8. A cut is possible only at
the boundary of a character, and a slice only between two boundaries in this order; there is no
slice at other offsets.
-/

namespace Offside.Slicing

open Offside.Bracket (byteLength)
open Text

variable {text front body rest : List Char} {condition : Char → Bool}

/-! ### Lengths in bytes -/

theorem byteLength_append (front rest : List Char) :
    byteLength (front ++ rest) = byteLength front + byteLength rest := by
  induction front with
  | nil => simp [byteLength]
  | cons character front ih => simp [byteLength, ih, Nat.add_assoc]

theorem byteLength_le_of_front (inside : front <+: text) :
    byteLength front ≤ byteLength text := by
  rcases inside with ⟨rest, rfl⟩
  rw [byteLength_append]
  exact Nat.le_add_right _ _

@[simp]
theorem byteLength_eq_zero_iff : byteLength text = 0 ↔ text = [] := by
  cases text with
  | nil => simp [byteLength]
  | cons character text =>
      have positive := character.utf8Size_pos
      simp only [byteLength, reduceCtorEq, iff_false]
      omega

theorem eq_of_front (inside : front <+: text) (same : byteLength front = byteLength text) :
    front = text := by
  rcases inside with ⟨rest, rfl⟩
  rw [byteLength_append] at same
  obtain rfl : rest = [] := byteLength_eq_zero_iff.mp (by omega)
  exact (List.append_nil front).symm

/-- As many bytes as characters, when each character takes one byte. -/
theorem byteLength_eq_length (single : ∀ character ∈ text, character.utf8Size = 1) :
    byteLength text = text.length := by
  induction text with
  | nil => rfl
  | cons character text ih =>
      rw [List.forall_mem_cons] at single
      simp only [byteLength, single.1, ih single.2, List.length_cons]
      omega

theorem byteLength_takeWhile (single : ∀ character, condition character = true →
    character.utf8Size = 1) :
    byteLength (text.takeWhile condition) = (text.takeWhile condition).length :=
  byteLength_eq_length fun character inside => single character (List.mem_takeWhile_imp inside)

/-! ### Characters of one byte -/

theorem utf8Size_of_isWordOrDash {character : Char} (word : isWordOrDash character = true) :
    character.utf8Size = 1 := by
  rw [Char.utf8Size_eq_one_iff]
  unfold isWordOrDash isWord Char.isAlphanum Char.isAlpha Char.isUpper Char.isLower Char.isDigit
    at word
  simp only [Bool.or_eq_true, Bool.and_eq_true, decide_eq_true_eq, beq_iff_eq] at word
  rcases word with ((((⟨_, le⟩ | ⟨_, le⟩) | ⟨_, le⟩) | rfl) | rfl)
  · exact UInt32.le_trans le (by decide)
  · exact UInt32.le_trans le (by decide)
  · exact UInt32.le_trans le (by decide)
  all_goals decide

theorem utf8Size_of_isIndentation {character : Char} (blank : isIndentation character = true) :
    character.utf8Size = 1 := by
  rcases Bool.or_eq_true_iff.mp blank with same | same
  all_goals
    obtain rfl := beq_iff_eq.mp same
    rfl

theorem utf8Size_of_eq {character sign : Char} (ascii : sign.utf8Size = 1)
    (same : (character == sign) = true) : character.utf8Size = 1 :=
  beq_iff_eq.mp same ▸ ascii

/-! ### Cutting -/

/-- Cut a text at a byte offset, unless that is out of range or inside of a character. -/
def splitAt? : (offset : Nat) → (text : List Char) → Option (List Char × List Char)
  | 0, text => some ([], text)
  | _ + 1, [] => none
  | offset + 1, character :: text =>
      if offset + 1 < character.utf8Size then none
      else (splitAt? (offset + 1 - character.utf8Size) text).map fun (front, rest) =>
        (character :: front, rest)

theorem splitAt?_eq_some_iff {offset : Nat} :
    splitAt? offset text = some (front, rest) ↔
      text = front ++ rest ∧ byteLength front = offset := by
  induction text generalizing offset front with
  | nil =>
      cases offset with
      | zero =>
          simp only [splitAt?, Option.some.injEq, Prod.mk.injEq, List.nil_eq,
            List.append_eq_nil_iff]
          constructor
          · rintro ⟨rfl, rfl⟩
            exact ⟨⟨rfl, rfl⟩, rfl⟩
          · exact And.left
      | succ offset => simp +contextual [splitAt?, byteLength, eq_comm]
  | cons character text ih =>
      have positive := character.utf8Size_pos
      cases offset with
      | zero =>
          constructor
          · rintro ⟨⟩
            exact ⟨rfl, rfl⟩
          · rintro ⟨cut, empty⟩
            obtain rfl := byteLength_eq_zero_iff.mp empty
            rw [splitAt?, cut]
            rfl
      | succ offset =>
          rw [splitAt?]
          constructor
          · intro found
            split at found
            · cases found
            · rcases Option.map_eq_some_iff.mp found with ⟨⟨others, behind⟩, inside, ⟨⟩⟩
              rcases ih.mp inside with ⟨rfl, others⟩
              refine ⟨rfl, ?_⟩
              simp only [byteLength]
              omega
          · rintro ⟨cut, offset_eq⟩
            cases front with
            | nil => cases offset_eq
            | cons first front =>
                rw [List.cons_append, List.cons.injEq] at cut
                rcases cut with ⟨rfl, rfl⟩
                simp only [byteLength] at offset_eq
                rw [if_neg (by omega), ih.mpr ⟨rfl, (by omega : _ = _)⟩]
                rfl

/-- The text between two byte offsets, if they are boundaries of characters and in order. -/
def slice? (text : List Char) (first last : Nat) : Option (List Char) :=
  if last < first then none
  else (splitAt? first text).bind fun cut => (splitAt? (last - first) cut.2).map Prod.fst

theorem slice?_eq_some_iff {first last : Nat} :
    slice? text first last = some body ↔
      ∃ front rest, text = front ++ body ++ rest ∧ byteLength front = first ∧
        byteLength front + byteLength body = last := by
  constructor
  · intro sliced
    unfold slice? at sliced
    split at sliced
    · cases sliced
    · rcases Option.bind_eq_some_iff.mp sliced with ⟨⟨front, behind⟩, cut, inside⟩
      rcases Option.map_eq_some_iff.mp inside with ⟨⟨body, rest⟩, found, rfl⟩
      rcases splitAt?_eq_some_iff.mp cut with ⟨rfl, rfl⟩
      rcases splitAt?_eq_some_iff.mp found with ⟨rfl, length⟩
      exact ⟨front, rest, (List.append_assoc ..).symm, rfl, by dsimp only; omega⟩
  · rintro ⟨front, rest, rfl, rfl, rfl⟩
    have cut : splitAt? (byteLength front) (front ++ body ++ rest) = some (front, body ++ rest) :=
      splitAt?_eq_some_iff.mpr ⟨List.append_assoc .., rfl⟩
    have inside : splitAt? (byteLength front + byteLength body - byteLength front) (body ++ rest) =
        some (body, rest) := splitAt?_eq_some_iff.mpr ⟨rfl, by omega⟩
    rw [slice?, if_neg (by omega), cut, Option.bind_some]
    exact congrArg (Option.map Prod.fst) inside

/-- There is no slice exactly at offsets that are no boundaries, or not in order. -/
theorem slice?_isSome_iff {first last : Nat} :
    (slice? text first last).isSome = true ↔
      first ≤ last ∧ (∃ front, front <+: text ∧ byteLength front = first) ∧
        ∃ front, front <+: text ∧ byteLength front = last := by
  rw [Option.isSome_iff_exists]
  constructor
  · rintro ⟨body, sliced⟩
    rcases slice?_eq_some_iff.mp sliced with ⟨front, rest, rfl, rfl, rfl⟩
    refine ⟨Nat.le_add_right _ _, ⟨front, ?_, rfl⟩, front ++ body, ?_, byteLength_append ..⟩
    · exact (List.prefix_append front body).trans (List.prefix_append _ rest)
    · exact List.prefix_append _ rest
  · rintro ⟨ordered, ⟨front, isFront, rfl⟩, longer, isLonger, rfl⟩
    have inside : front <+: longer := by
      rcases List.prefix_or_prefix_of_prefix isFront isLonger with inside | ⟨body, rfl⟩
      · exact inside
      · rw [byteLength_append] at ordered
        obtain rfl : body = [] := byteLength_eq_zero_iff.mp (by omega)
        exact ⟨[], by simp only [List.append_nil]⟩
    rcases inside with ⟨body, rfl⟩
    rcases isLonger with ⟨rest, rfl⟩
    exact ⟨body, slice?_eq_some_iff.mpr ⟨front, rest, rfl, rfl, (byteLength_append ..).symm⟩⟩

example : slice? ['(', 'é', ')'] 1 3 = some ['é'] ∧ slice? ['(', 'é', ')'] 1 2 = none := by
  decide

end Offside.Slicing
