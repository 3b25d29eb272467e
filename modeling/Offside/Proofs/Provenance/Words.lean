import Offside.Proofs.Nesting.Words
import Offside.Proofs.Provenance.Scanner
import Offside.Token.Attribute
import Offside.Token.Indentation

/-!
# Rules that look at no other rule

Each of these rules stays on its line, or goes on to the next one.
-/

namespace Offside

open Computing Scanner Text

namespace Text

variable {text : List Char}

theorem newline_not_mem_takeWhile {condition : Char → Bool} (stops : condition '\n' = false) :
    '\n' ∉ text.takeWhile condition := by
  intro newline
  rw [List.mem_takeWhile_imp newline] at stops
  cases stops

theorem isPrefix_dropEndWhile (condition : Char → Bool) (text : List Char) :
    dropEndWhile condition text <+: text := by
  rw [← List.reverse_suffix, dropEndWhile, List.reverse_reverse]
  exact List.dropWhile_suffix condition

end Text

namespace Rule

section

variable {text head rest : List Char} {keyword : String}

theorem eq_append_of_keywordSpaces? (oneLine : '\n' ∉ keyword.toList)
    (found : keywordSpaces? keyword text = some (head, rest)) :
    text = head ++ rest ∧ '\n' ∉ head := by
  simp only [keywordSpaces?, Option.bind_eq_bind, Option.bind_eq_some_iff] at found
  rcases found with ⟨behind, keywordFound, spaces⟩
  split at spaces
  · cases spaces
  · cases spaces
    rw [afterKeyword?, after?_eq_some_iff] at keywordFound
    refine ⟨?_, ?_⟩
    · rw [List.append_assoc, List.takeWhile_append_dropWhile, keywordFound]
    · rw [List.mem_append, not_or]
      exact ⟨oneLine, newline_not_mem_takeWhile rfl⟩

theorem eq_append_of_blockHead? {afterBlock : Bool} (oneLine : '\n' ∉ keyword.toList)
    (found : blockHead? keyword afterBlock text = some (head, rest)) :
    text = head ++ rest ∧ '\n' ∉ head := by
  rcases (Option.orElse_eq_some _ _ _).mp found with long | ⟨_, short⟩
  · split at long
    · simp only [Option.bind_eq_bind, Option.bind_eq_some_iff] at long
      rcases long with ⟨⟨front, behind⟩, blockFound, ⟨matched, others⟩, keywordFound, ⟨⟩⟩
      rcases eq_append_of_keywordSpaces? (by decide) blockFound with ⟨rfl, oneLineFront⟩
      rcases eq_append_of_keywordSpaces? oneLine keywordFound with ⟨rfl, oneLineMatched⟩
      refine ⟨(List.append_assoc ..).symm, ?_⟩
      rw [List.mem_append, not_or]
      exact ⟨oneLineFront, oneLineMatched⟩
    · cases long
  · exact eq_append_of_keywordSpaces? oneLine short

theorem isPrefix_beforeComment (text : List Char) : beforeComment text <+: text := by
  fun_induction beforeComment text with
  | case1 => exact List.nil_prefix
  | case2 character rest _ ih => exact List.cons_prefix_cons.mpr ⟨rfl, ih⟩
  | case3 => exact List.prefix_rfl

end

/-! ### Keywords -/

theorem goes_blankLine : SimpleRule.Goes blankLine := by
  intro log corner scanner room
  unfold blankLine
  dsimp +instances only [unread_logged]
  split
  · next rest unread =>
      split
      · next others blanks =>
          have suffix : '\n' :: others <:+ rest := blanks ▸ List.dropWhile_suffix _
          exact .some rfl ((GoesTo.refl room).nextLine rfl rfl rfl rfl unread suffix)
      · exact .none
  · exact .none

theorem goes_endOfInput : CheckedRule.Goes endOfInput := by
  intro log corner scanner room
  have closes : ∀ after, GoesTo corner scanner after →
      GoesTo corner scanner (after.pushHere .outdent) :=
    fun _ goes => goes.pushHere .outdent
  rcases foldl_logged log (·.pushHere .outdent) (fun _ => rfl) closes scanner.levels (.refl room)
    with ⟨goes, same⟩
  unfold endOfInput
  dsimp +instances only [unread_logged, interpolated_logged, levels_logged, fault_logged]
  split
  · split
    · exact .error (reports_fault room _)
    · refine .matched ?_ ((goes.pushHere .eos).keep rfl rfl rfl rfl List.suffix_rfl)
      rw [same]
      rfl
  · exact .declined

theorem goes_endInterpolation : SimpleRule.Goes endInterpolation := by
  intro log corner scanner room
  unfold endInterpolation
  dsimp +instances only [unread_logged, interpolated_logged]
  split
  · next rest inside unread =>
      exact .some rfl ((GoesTo.refl room).keep rfl rfl rfl rfl (unread ▸ List.suffix_cons _ _))
  · exact .none

section

variable {corner : Position} {scanner : Scanner}

/-- A token at the end of its line, and the scanner behind it. -/
theorem finds_endOfLine? (log : Array Event) (room : scanner.HasRoom corner)
    {matched rest : List Char} (whole : scanner.unread = matched ++ rest) (kind : TokenKind) :
    Finds (fun found => (found.1, found.2.logged log))
      (fun found =>
        GoesTo corner scanner found.2 ∧ GoesTo corner scanner (found.2.pushToken found.1))
      ((scanner.logged log).endOfLine? matched rest kind)
      (scanner.endOfLine? matched rest kind) := by
  have stop {unread : List Char} (more : unread <:+ rest) :
      GoesTo corner scanner { scanner with
        unread := unread, position := scanner.position.right matched.length } ∧
      GoesTo corner scanner ({ scanner with
        unread := unread, position := scanner.position.right matched.length }.push kind
          (scanner.position.right (matched.takeWhile (· == ' ')).length)) := by
    have goes : GoesTo corner scanner { scanner with
        unread := unread, position := scanner.position.right matched.length } := by
      refine (GoesTo.refl room).read rfl rfl rfl rfl ?_ ?_
      · exact more.trans (whole ▸ List.suffix_append matched rest)
      · have shorter := more.length_le
        simp only [lastColumn, Position.right, whole, List.length_append]
        omega
    have within := goes.room.within
    have spaces := (List.takeWhile_prefix (· == ' ') (l := matched)).length_le
    refine ⟨goes, goes.push kind (Nat.le_refl _) ⟨within.line, ?_⟩⟩
    exact Nat.le_trans (Nat.add_le_add_left spaces _) within.column
  unfold endOfLine?
  dsimp only [file_logged, position_logged]
  split
  · exact .some rfl (stop List.suffix_rfl)
  · have blanks := List.dropWhile_suffix isIndentation (l := rest)
    split
    · exact .some rfl (stop List.nil_suffix)
    · next others behind => exact .some rfl (stop (behind ▸ blanks))
    · exact .none

end

theorem goes_keywordLine (keyword : String) (kind : TokenKind) :
    SimpleRule.Goes (keywordLine keyword kind) := by
  intro log corner scanner room
  unfold keywordLine
  rw [unread_logged]
  cases behind : afterKeyword? keyword scanner.unread with
  | none => exact .none
  | some rest =>
      have whole := after?_eq_some_iff.mp behind
      refine Finds.bind (finds_endOfLine? log room whole kind) fun found goes => ?_
      exact .some rfl goes.2

theorem goes_doctype : SimpleRule.Goes doctype := by
  intro log corner scanner room
  unfold doctype
  dsimp +instances only [unread_logged]
  split
  · exact .some rfl (goesTo_emit room _ _)
  · exact .none

theorem goes_defaultKeyword : CheckedRule.Goes defaultKeyword := by
  intro log corner scanner room
  have keyword := goes_keywordLine "default" .default log corner scanner room
  unfold defaultKeyword
  rw [keyword.same]
  cases found : keywordLine "default" .default scanner with
  | some next => exact .matched rfl (keyword.holds next found)
  | none =>
      dsimp +instances only [Option.map_none, unread_logged, fault_logged]
      split
      · exact .error (reports_fault room _)
      · exact .declined

theorem goes_namedBlock {keyword : String} (oneLine : '\n' ∉ keyword.toList) (afterBlock : Bool)
    (mode : BlockMode) : SimpleRule.Goes (namedBlock keyword afterBlock mode) := by
  intro log corner scanner room
  unfold namedBlock
  rw [unread_logged]
  cases behind : blockHead? keyword afterBlock scanner.unread with
  | none => exact .none
  | some found =>
      rcases found with ⟨head, rest⟩
      have whole := (eq_append_of_blockHead? oneLine behind).1
      dsimp only [Option.bind_eq_bind, Option.bind_some]
      generalize isLabel : beforeComment (firstLine rest) = label
      have inRest : label.length ≤ rest.length :=
        isLabel ▸ ((isPrefix_beforeComment _).trans (List.takeWhile_prefix _)).length_le
      have inLabel : (dropEndWhile isSeparator label).length ≤ label.length :=
        (isPrefix_dropEndWhile isSeparator label).length_le
      split
      · exact .none
      · have left : rest.drop label.length <:+ scanner.unread :=
          (List.drop_suffix _ _).trans (whole ▸ List.suffix_append head rest)
        have read {count : Nat} (behindName : count ≤ head.length + label.length) :
            Scanner.HasRoom corner
              { scanner.right count with unread := rest.drop label.length } := by
          refine room.read rfl left ?_
          simp only [lastColumn, right, Position.right, whole, List.length_append, List.length_drop]
          omega
        have named : GoesTo corner scanner { scanner.right
            (head.length + (dropEndWhile isSeparator label).length) with
              unread := rest.drop label.length } :=
          (GoesTo.refl room).move rfl rfl rfl (Nat.le_refl _) (read (by omega))
        refine .some rfl ((named.pushFrom room _).move rfl rfl rfl (Nat.le_refl _) ?_)
        have last := read (Nat.le_refl _)
        refine ⟨last.1, Nat.le_trans (Nat.le_of_eq ?_) last.2⟩
        simp only [lastColumn, right, push, Position.right]
        omega

theorem goes_mixin : SimpleRule.Goes mixin := by
  intro log corner scanner room
  unfold mixin
  rw [unread_logged]
  cases behind : keywordSpaces? "mixin" scanner.unread with
  | none => exact .none
  | some found =>
      dsimp only [Option.bind_eq_bind, Option.bind_some]
      split
      · exact .none
      · exact .some rfl (goesTo_emit room _ _)

/-! ### Names and signs -/

theorem goes_tag : SimpleRule.Goes tag := by
  intro log corner scanner room
  unfold tag
  dsimp +instances only [unread_logged]
  split
  · split
    · exact .some rfl (goesTo_emit room _ _)
    · exact .none
  · exact .none

theorem goes_id : CheckedRule.Goes id := by
  intro log corner scanner room
  unfold id
  dsimp +instances only [unread_logged, fault_logged]
  split
  · split
    · exact .error (reports_fault room _)
    · exact .matched rfl (goesTo_emit room _ _)
  · exact .declined

theorem goes_className : CheckedRule.Goes className := by
  intro log corner scanner room
  unfold className
  dsimp +instances only [unread_logged, fault_logged]
  split
  · split
    · exact .matched rfl (goesTo_emit room _ _)
    · split
      · exact .error (reports_fault room _)
      · exact .error (reports_fault room _)
  · exact .declined

theorem goes_slash : SimpleRule.Goes slash := by
  intro log corner scanner room
  unfold slash
  dsimp +instances only [unread_logged]
  split
  · exact .some rfl (goesTo_emit room _ _)
  · exact .none

theorem goes_colon : SimpleRule.Goes colon := by
  intro log corner scanner room
  unfold colon
  dsimp +instances only [unread_logged]
  split
  · split
    · exact .none
    · exact .some rfl (goesTo_emit room _ _)
  · exact .none

end Rule

end Offside
