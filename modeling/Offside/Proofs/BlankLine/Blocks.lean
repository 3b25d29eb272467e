import Offside.Proofs.BlankLine.Brackets
import Offside.Proofs.BlankLine.Lines
import Offside.Proofs.BlankLine.Runs
import Offside.Proofs.Layout.Steps

/-!
# What may have a text block

Comments, filters and a dot at the end of a line may have a text block, which reads on over several
lines. Where a text begins with none of these, their rules decline. On the only line of a text they
find no block.
-/

namespace Offside

open Computing Scanner Text

variable {front rest rest' : List Char} {scanner other : Scanner} {inner inner' : Scanning Unit}

namespace Text

/-- A text begins with a comment, a filter, or a dot that ends its line. -/
def beginsBlock : List Char → Bool
  | '/' :: '/' :: _ => true
  | ':' :: rest => (Rule.filterName? rest).isSome
  | '.' :: rest => (lineEnd? rest).isSome
  | _ => false

/-- A text begins with what may have a text block, or with an include that has a filter. -/
def announcesBlock (text : List Char) : Bool :=
  beginsBlock text || (afterKeyword? "include" text).any beginsBlock

namespace AtLineEnd

variable (ends : AtLineEnd rest)

include ends

theorem filterName?_append : Rule.filterName? (front ++ rest) = Rule.filterName? front := by
  cases front with
  | nil =>
      cases rest with
      | nil => rfl
      | cons next back =>
          obtain rfl := ends next rfl
          rfl
  | cons first line =>
      have name := @AtLineEnd.takeWhile_append (first :: line) rest isWordOrDash ends (by decide)
      rw [List.cons_append] at name ⊢
      unfold Rule.filterName?
      dsimp only
      rw [name, ends.firstLine_append]

theorem beginsBlock_append : beginsBlock (front ++ rest) = beginsBlock front := by
  cases front with
  | nil =>
      cases rest with
      | nil => rfl
      | cons next back =>
          obtain rfl := ends next rfl
          rfl
  | cons first line =>
      by_cases slash : first = '/'
      · subst slash
        cases line with
        | nil =>
            cases rest with
            | nil => rfl
            | cons next back =>
                obtain rfl := ends next rfl
                rfl
        | cons second => by_cases twice : second = '/' <;> simp [beginsBlock, twice]
      · by_cases colon : first = ':'
        · subst colon
          exact congrArg Option.isSome ends.filterName?_append
        · by_cases dot : first = '.'
          · subst dot
            show (lineEnd? (line ++ rest)).isSome = (lineEnd? line).isSome
            rw [ends.lineEnd?_append, Option.isSome_map]
          · simp [beginsBlock, slash, colon, dot]

end AtLineEnd

end Text

/-! ### Where no block begins -/

section

variable (noBlock : beginsBlock scanner.unread = false)

include noBlock

theorem Rule.filter_eq_of_not_beginsBlock (attributes : Scanning Bool)
    (block : Option (Scanning Bool)) :
    filter attributes block scanner = .ok false scanner := by
  cases unread : scanner.unread with
  | nil => simp [filter, get_bind_eq, unread, pure, EStateM.pure]
  | cons first rest =>
      by_cases colon : first = ':'
      · subst colon
        have noName : filterName? rest = none := by simpa [unread, beginsBlock] using noBlock
        simp [filter, get_bind_eq, unread, noName, pure, EStateM.pure]
      · simp [filter, get_bind_eq, unread, colon, pure, EStateM.pure]

theorem Rule.dot_eq_of_not_beginsBlock (block : Scanning Bool) :
    dot block scanner = .ok false scanner := by
  cases unread : scanner.unread with
  | nil => simp [dot, get_bind_eq, unread, pure, EStateM.pure]
  | cons first rest =>
      by_cases isDot : first = '.'
      · subst isDot
        have noEnd : lineEnd? rest = none := by simpa [unread, beginsBlock] using noBlock
        simp [dot, get_bind_eq, unread, endOfLine?_eq, noEnd, pure, EStateM.pure]
      · simp [dot, get_bind_eq, unread, isDot, pure, EStateM.pure]

theorem Rule.comment_eq_of_not_beginsBlock (block : Scanning Bool) :
    comment block scanner = .ok false scanner := by
  rcases unread : scanner.unread with _ | ⟨first, _ | ⟨second, rest⟩⟩
  · simp [comment, get_bind_eq, unread, pure, EStateM.pure]
  · simp [comment, get_bind_eq, unread, pure, EStateM.pure]
  · by_cases slash : first = '/'
    · by_cases twice : second = '/'
      · rw [unread, slash, twice] at noBlock
        cases noBlock
      · simp [comment, get_bind_eq, unread, twice, pure, EStateM.pure]
    · simp [comment, get_bind_eq, unread, slash, pure, EStateM.pure]

end

/-! ### On the only line -/

theorem textBlockStep_of_oneLine (oneLine : '\n' ∉ scanner.unread) :
    textBlockStep [] inner scanner = .ok false scanner := by
  have begins : ∀ others, scanner.unread ≠ '\n' :: others := fun others same =>
    oneLine (same ▸ List.mem_cons_self ..)
  have noBlank : Rule.blankLine scanner = none := by
    unfold Rule.blankLine
    split
    · next same => exact absurd same (begins _)
    · rfl
  have blank : blankStep [] scanner = .ok false scanner := by
    show SimpleRule.run Rule.blankLine scanner = _
    rw [SimpleRule.run, noBlank]
  have unmeasured := measure?_eq_none begins
  refine get_bind_eq.trans ?_
  refine get_bind_eq.trans ?_
  refine (bind_of_ok (repeatRule_of_declines blank _)).trans ?_
  refine modifyGet_bind_eq.trans ?_
  simp [unmeasured, pure, EStateM.pure]

/-- Where both texts are the same, any number of characters may be read. -/
theorem Scanner.Twin.emit_all (twin : Twin front [] [] scanner other) (kind : TokenKind)
    (count : Nat) : Twin (front.drop count) [] [] (scanner.emit kind count)
      (other.emit kind count) := by
  have dropped : Twin (front.drop count) [] [] (scanner.drop count) (other.drop count) :=
    { twin with
      unread := by rw [Scanner.drop, twin.unread, List.append_nil, List.append_nil]
      unreadOther := by rw [Scanner.drop, twin.unreadOther, List.append_nil, List.append_nil] }
  unfold Scanner.emit
  rw [twin.unread, twin.unreadOther]
  exact (dropped.right _).push kind twin.column

section

variable {limit : Nat} (twin : Twin front [] [] scanner other) (fits : front.length ≤ limit)

include twin fits

theorem mirrored_textBlockStep (oneLine : '\n' ∉ scanner.unread) :
    Scanning.Mirrored limit [] [] (textBlockStep [] inner) (textBlockStep [] inner') scanner
      other := by
  have oneLineOther : '\n' ∉ other.unread := by rwa [twin.unreadOther, ← twin.unread]
  unfold Scanning.Mirrored
  rw [textBlockStep_of_oneLine oneLine, textBlockStep_of_oneLine oneLineOther]
  exact ⟨rfl, twin.twins fits⟩

theorem mirrored_attributesStep :
    Scanning.Mirrored limit [] [] (attributesStep []) (attributesStep []) scanner other :=
  (CheckedRule.mirrored (twin.twins (Nat.le_refl _))
    (Rule.mirrors_attributes .nil twin (.inl rfl))).mono fits

theorem Rule.mirrored_comment (oneLine : '\n' ∉ scanner.unread) :
    Scanning.Mirrored limit [] [] (comment (textBlockStep [] inner))
      (comment (textBlockStep [] inner')) scanner other := by
  refine .get_bind ?_
  rw [twin.unread, List.append_nil] at oneLine
  have opens : ∀ {line : List Char} (kind : TokenKind) (buffered : Bool),
      front = '/' :: '/' :: line →
      Scanning.Mirrored limit [] []
        (do
          set ({ scanner with markersAllowed := buffered }.emit kind (2 + (firstLine line).length))
          let _ ← textBlockStep [] inner
          return true)
        (do
          set ({ other with markersAllowed := buffered }.emit kind (2 + (firstLine line).length))
          let _ ← textBlockStep [] inner'
          return true)
        scanner other := by
    rintro line kind buffered rfl
    have within : 2 + (firstLine line).length ≤ ('/' :: '/' :: line).length := by
      have shorter : (firstLine line).length ≤ line.length := (List.takeWhile_prefix _).length_le
      simp only [List.length_cons]
      omega
    have emitted := (twin.allow buffered).emit kind within
    have suffix := List.drop_suffix (2 + (firstLine line).length) ('/' :: '/' :: line)
    refine .set_bind ((mirrored_textBlockStep emitted (Nat.le_trans suffix.length_le fits) ?_).bind
      fun _ _ _ twins => .pure twins true)
    rw [emitted.unread, List.append_nil]
    exact fun newline => oneLine (suffix.subset newline)
  have sameText : other.unread = scanner.unread := twin.unreadOther.trans twin.unread.symm
  split
  · next line begins =>
      split
      · next line' begins' =>
          obtain rfl : line' = line := by simpa [sameText, begins] using begins'.symm
          rw [twin.unread, List.append_nil] at begins
          dsimp only
          split <;> exact opens _ _ begins
      · next otherwise => exact (otherwise _ (sameText.trans begins)).elim
  · next otherwise =>
      split
      · next begins' => exact (otherwise _ (sameText.symm.trans begins')).elim
      · exact .pure (twin.twins fits) false

theorem Rule.mirrored_dot (oneLine : '\n' ∉ scanner.unread) :
    Scanning.Mirrored limit [] [] (dot (textBlockStep [] inner))
      (dot (textBlockStep [] inner')) scanner other := by
  refine .get_bind ?_
  rw [twin.unread, List.append_nil] at oneLine
  rw [twin.unread, twin.unreadOther, List.append_nil]
  split
  · next line =>
      have shorter : line.length ≤ limit := Nat.le_trans (Nat.le_succ _) fits
      have found := mirrors_endOfLine? .nil twin ['.'] line .dot (Nat.le_refl _)
      rw [List.append_nil] at found
      have unread : scanner.unread = '.' :: line := by rw [twin.unread, List.append_nil]
      cases taken : scanner.endOfLine? ['.'] line .dot with
      | none =>
          rw [taken] at found
          revert found
          generalize other.endOfLine? ['.'] line .dot = result'
          rintro ⟨⟩
          exact .pure (twin.twins fits) false
      | some next =>
          have takes := takes_endOfLine taken rfl (unread ▸ .cons List.suffix_rfl)
          have oneLineNext : '\n' ∉ (next.2.pushToken next.1).unread := fun newline =>
            oneLine ((unread ▸ takes.unread.suffix).subset newline)
          rw [taken] at found
          revert found
          generalize other.endOfLine? ['.'] line .dot = result'
          rintro (⟨sameToken, left, fitsLeft, twinLeft⟩ | _)
          exact .set_bind ((mirrored_textBlockStep (twinLeft.pushToken sameToken)
            (Nat.le_trans fitsLeft shorter) oneLineNext).bind fun _ _ _ twins => .pure twins true)
  · exact .pure (twin.twins fits) false

theorem Rule.mirrored_filter {block block' : Option (Scanning Bool)}
    (blocks : Option.Rel (fun block block' => ∀ scanner other, scanner.unread <:+ front →
      Twins limit [] [] scanner other → Scanning.Mirrored limit [] [] block block' scanner other)
        block block') :
    Scanning.Mirrored limit [] [] (filter (attributesStep []) block)
      (filter (attributesStep []) block') scanner other := by
  refine .get_bind ?_
  rw [twin.unread, twin.unreadOther, List.append_nil]
  split
  · next line =>
      cases named : filterName? line with
      | none => exact .pure (twin.twins fits) false
      | some found =>
          rcases found with ⟨name, length⟩
          have emitted := twin.emit_all (.filter (String.ofList name)) (1 + length)
          have suffix := List.drop_suffix (1 + length) (':' :: line)
          have within := Nat.le_trans suffix.length_le fits
          refine .set_bind ((mirrored_attributesStep emitted within).bind_known ?_)
          intro _ middle middle' read _ twins
          have suffixMiddle := (ensures_attributes _ _ read).1.unread
          rw [emitted.unread, List.append_nil] at suffixMiddle
          cases blocks with
          | none => exact .pure twins true
          | some mirrored =>
              refine .modify_bind ((mirrored _ _ ?_ ?_).bind fun _ _ _ twins => .pure twins true)
              · exact suffixMiddle.trans suffix
              · rcases twins with ⟨left, fitsLeft, twinLeft⟩
                exact (twinLeft.allow false).twins fitsLeft
  · exact .pure (twin.twins fits) false

end

end Offside
