import Offside.Proofs.BlankLine.Words
import Offside.Token.Indentation

/-!
# Lines in two texts

The rules for lines read a newline and what is behind it. So they take two scanners to twins only
if these stand in front of the place where their texts begin to differ.
-/

namespace Offside

open Computing Scanner Text

variable {front rest rest' : List Char} {scanner other : Scanner}

/-! ### Levels -/

namespace Scanner.Twin

theorem foldl (twin : Twin front rest rest' scanner other) {leave leave' : Scanner → Scanner}
    (leaves : ∀ {scanner other}, Twin front rest rest' scanner other →
      Twin front rest rest' (leave scanner) (leave' other)) {α : Type} (entries : List α) :
    Twin front rest rest' (entries.foldl (fun left _ => leave left) scanner)
      (entries.foldl (fun left _ => leave' left) other) := by
  induction entries generalizing scanner other with
  | nil => exact twin
  | cons _ _ ih => exact ih (leaves twin)

theorem pushOutdent (twin : Twin front rest rest' scanner other) :
    Twin front rest rest' scanner.pushOutdent other.pushOutdent := by
  have moved : Twin front rest rest'
      { scanner with position := ⟨scanner.position.line, scanner.top + 1⟩ }
      { other with position := ⟨other.position.line, other.top + 1⟩ } :=
    { twin with column := congrArg (· + 1) twin.top }
  exact moved.push .outdent rfl

theorem align (twin : Twin front rest rest' scanner other) (width : Nat) :
    Both (Twin front rest rest') SameReason (scanner.align width) (other.align width) := by
  unfold Scanner.align
  rw [twin.top, twin.levels]
  dsimp only
  split
  · split
    · exact .error .refl
    · next closed levels _ =>
        have lower : Twin front rest rest' { scanner with levels }
            { other with levels } := { twin with levels := rfl }
        exact .ok ((lower.note (.outdented closed width)).foldl pushOutdent _)
  · have moved : Twin front rest rest'
        { scanner with position := ⟨scanner.position.line, 1 + width⟩ }
        { other with position := ⟨other.position.line, 1 + width⟩, levels := scanner.levels } :=
      { twin with column := rfl, levels := rfl }
    split
    · exact .ok { (moved.note (.indented width)).push (.indent width) twin.column with
        levels := rfl }
    · exact .ok (moved.push .newline twin.column)

theorem measure? (spaced : Spaced rest rest') {line : List Char}
    (twin : Twin ('\n' :: line) rest rest' scanner other) :
    ∃ width measured measured', scanner.measure? = some (width, measured) ∧
      other.measure? = some (width, measured') ∧ width ≤ line.length ∧
        Twin ('\n' :: line) rest rest' measured measured' := by
  have sameWidth : ∀ unit {behind : List Char}, AtLineEnd behind →
      indentWidth unit (line ++ behind) = indentWidth unit line := by
    intro unit behind ends
    unfold indentWidth
    rw [ends.takeWhile_append (by cases unit <;> decide)]
  have within : ∀ unit, indentWidth unit line ≤ line.length := fun unit =>
    (List.takeWhile_prefix _).length_le
  have fixed : ∀ unit, Twin ('\n' :: line) rest rest'
      { scanner with unread := '\n' :: line ++ rest, unit }
      { other with unread := '\n' :: line ++ rest', unit } :=
    fun unit => { twin with unread := rfl, unreadOther := rfl, unit := rfl }
  unfold Scanner.measure?
  rw [twin.unread, twin.unreadOther, twin.unit]
  simp only [List.cons_append, sameWidth _ spaced.left, sameWidth _ spaced.right]
  cases scanner.unit with
  | some unit => exact ⟨_, _, _, rfl, rfl, within unit, twin⟩
  | none =>
      dsimp only
      split
      · exact ⟨_, _, _, rfl, rfl, within .tab, fixed _⟩
      · split
        · exact ⟨_, _, _, rfl, rfl, within .space, fixed _⟩
        · exact ⟨_, _, _, rfl, rfl, Nat.zero_le _, twin⟩

end Scanner.Twin

theorem measure?_eq_none (noNewline : ∀ others, scanner.unread ≠ '\n' :: others) :
    scanner.measure? = none := by
  unfold Scanner.measure?
  split
  · next begins => exact absurd begins (noNewline _)
  · rfl

/-! ### Rules -/

namespace Rule

section

variable (spaced : Spaced rest rest') (twin : Twin front rest rest' scanner other)
  (ahead : front = [] → rest = [])

include spaced twin ahead

theorem mirrors_blankLine :
    Option.Rel (Twins front.length rest rest') (blankLine scanner) (blankLine other) := by
  unfold blankLine
  rw [twin.unread, twin.unreadOther]
  cases front with
  | nil =>
      obtain rfl := ahead rfl
      cases spaced
      exact .none
  | cons first line =>
      by_cases newline : first = '\n'
      · subst newline
        simp only [List.cons_append]
        rw [spaced.left.dropWhile_append (by decide), spaced.right.dropWhile_append (by decide)]
        have shorter := (List.dropWhile_suffix isIndentation (l := line)).length_le
        cases behind : line.dropWhile isIndentation with
        | nil =>
            cases spaced with
            | nil => exact .none
            | line =>
                have read := twin.nextLine.read [] twin.nextLine.column
                exact .some (read.twins (Nat.zero_le _))
        | cons next others =>
            by_cases nextLine : next = '\n'
            · subst nextLine
              rw [behind] at shorter
              have read := twin.nextLine.read ('\n' :: others) twin.nextLine.column
              exact .some (read.twins (Nat.le_trans shorter (Nat.le_succ _)))
            · simp [nextLine]
      · simp [newline]

theorem mirrors_indentation :
    Both (Option.Rel (Twins front.length rest rest')) SameReason (indentation scanner)
      (indentation other) := by
  unfold indentation
  by_cases newline : ∃ line, front = '\n' :: line
  · rcases newline with ⟨line, rfl⟩
    rcases twin.measure? spaced with ⟨width, measured, measured', found, found', within, same⟩
    rw [found, found']
    have read : Twin (line.drop width) rest rest' (measured.nextLine.drop (width + 1))
        (measured'.nextLine.drop (width + 1)) :=
      same.nextLine.drop (Nat.succ_le_succ within)
    have fits : (line.drop width).length ≤ ('\n' :: line).length :=
      Nat.le_trans (List.drop_suffix _ _).length_le (Nat.le_succ _)
    dsimp only
    generalize measured.nextLine.drop (width + 1) = next at read ⊢
    generalize measured'.nextLine.drop (width + 1) = next' at read ⊢
    have aligns : Both (Option.Rel (Twins ('\n' :: line).length rest rest')) SameReason
        (do
          let aligned ← next.align width
          return some { aligned with markersAllowed := true })
        (do
          let aligned ← next'.align width
          return some { aligned with markersAllowed := true }) :=
      (read.align width).bind fun aligned aligned' twinAligned =>
        .ok (.some ((twinAligned.allow true).twins fits))
    have sameHead : next'.unread.head? = next.unread.head? := by
      rw [read.unread, read.unreadOther, spaced.head?_append]
    cases unread : next.unread with
    | nil =>
        rw [unread, List.head?_nil, List.head?_eq_none_iff] at sameHead
        rw [sameHead]
        exact aligns
    | cons first others =>
        rw [unread, List.head?_cons, List.head?_eq_some_iff] at sameHead
        rcases sameHead with ⟨others', unread'⟩
        rw [unread']
        by_cases blank : first = ' ' ∨ first = '\t'
        · rcases blank with rfl | rfl
          · exact .error .refl
          · exact .error .refl
        · by_cases nextLine : first = '\n'
          · subst nextLine
            have allowed := (read.allow true).twins fits
            rw [unread, unread'] at allowed
            exact .ok (.some allowed)
          · rw [not_or] at blank
            simpa [blank, nextLine] using aligns
  · have declines : ∀ {scanner : Scanner} {behind : List Char}, scanner.unread = front ++ behind →
        (front = [] → behind = []) → scanner.measure? = none := by
      intro scanner behind unread atEnd
      refine measure?_eq_none fun others begins => ?_
      rw [unread] at begins
      cases front with
      | nil => simp [atEnd rfl] at begins
      | cons first line =>
          injection begins with same
          exact newline ⟨line, congrArg (· :: line) same⟩
    rw [declines twin.unread ahead, declines twin.unreadOther]
    · exact .ok .none
    · intro empty
      obtain rfl := ahead empty
      cases spaced
      rfl

end

theorem mirrors_endOfInput : CheckedRule.Mirrors endOfInput := by
  intro front rest rest' scanner other spaced twin
  have sameEnd : other.unread.isEmpty = scanner.unread.isEmpty := by
    rw [twin.unread, twin.unreadOther]
    cases front with
    | nil => cases spaced <;> rfl
    | cons => rfl
  unfold endOfInput
  rw [sameEnd, twin.interpolated, twin.levels]
  split
  · split
    · exact .error .refl
    · have closed := twin.foldl (fun twin => twin.pushHere .outdent) scanner.levels
      have ended := closed.pushHere .eos
      refine .ok (.some (Twin.twins ?_ (Nat.le_refl front.length)))
      exact { ended with levels := rfl, ended := rfl }
  · exact .ok .none

end Rule

end Offside
