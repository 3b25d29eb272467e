import Offside.Proofs.Layout.Scanning

/-!
# Between two lines

The scanner passes over blank lines. Then the indentation of the next line opens a level, or keeps
the innermost one, or closes all levels down to that of an earlier line.
-/

namespace Offside

open Computing Relation Text

section

variable {unit : IndentUnit} {after : List Char} {levels outer : List Nat}

theorem dropWhile_blankLine {line : List Char} (blank : IsBlankLine line) {rest : List Char} :
    (line ++ '\n' :: rest).dropWhile isIndentation = '\n' :: rest := by
  rw [List.dropWhile_append_of_pos blank]
  rfl

theorem leads_blankLine {line : List Char} (blank : IsBlankLine line) :
    Leads unit ('\n' :: (line ++ '\n' :: after)) levels [] ('\n' :: after) levels := by
  have reads : ('\n' :: after).length < ('\n' :: (line ++ '\n' :: after)).length := by
    simp only [List.length_append, List.length_cons]
    omega
  refine leads_of_rule Step.exists_order_eq_blank reads ?_
  intro scanner kinds shows
  have matched : Rule.blankLine scanner =
      some { scanner.nextLine with unread := '\n' :: after } := by
    simp [Rule.blankLine, shows.unread, dropWhile_blankLine blank]
  refine ⟨by simp, { scanner.nextLine with unread := '\n' :: after }, fun inner => ?_, ?_⟩
  · simp [Step.rule, SimpleRule.run, matched]
  · exact ⟨rfl, shows.levels, by simpa [Scanner.nextLine] using shows.kinds, shows.unit,
      shows.running, shows.outside⟩

theorem leads_blankLines {blank : List (List Char)}
    (blankLines : ∀ line ∈ blank, IsBlankLine line) :
    Leads unit (unlines blank ++ '\n' :: after) levels [] ('\n' :: after) levels := by
  induction blank with
  | nil => exact .refl
  | cons line rest ih =>
      rcases List.forall_mem_cons.mp blankLines with ⟨first, others⟩
      have following : ∃ more, unlines rest ++ '\n' :: after = '\n' :: more := by
        cases rest <;> simp [unlines]
      rcases following with ⟨more, split⟩
      have here : unlines (line :: rest) ++ '\n' :: after = '\n' :: (line ++ '\n' :: more) := by
        rw [← split]
        simp [unlines]
      have skipped : Leads unit ('\n' :: (line ++ '\n' :: more)) levels [] ('\n' :: more) levels :=
        leads_blankLine first
      rw [here]
      exact skipped.trans (split ▸ ih others)

/-! ### Indentation -/

/-- Where a line begins that is not blank: no indentation stands there, and no newline. -/
def StartsLine (text : List Char) : Prop :=
  ∀ next ∈ text.head?, next ≠ ' ' ∧ next ≠ '\t' ∧ next ≠ '\n'

theorem indentWidth_replicate (width : Nat) (starts : StartsLine after) :
    indentWidth unit (List.replicate width unit.character ++ after) = width := by
  rw [indentWidth, List.takeWhile_append_of_pos (by simp +contextual)]
  cases after with
  | nil => simp
  | cons next rest =>
      rcases starts next rfl with ⟨space, tab, _⟩
      cases unit <;> simp [IndentUnit.character, space, tab]

theorem indentWidth_other {other : IndentUnit} (different : other ≠ unit) {width : Nat}
    (starts : StartsLine after) :
    indentWidth other (List.replicate width unit.character ++ after) = 0 := by
  cases width with
  | zero =>
      cases after with
      | nil => simp [indentWidth]
      | cons next rest =>
          rcases starts next rfl with ⟨space, tab, _⟩
          cases other <;> simp [indentWidth, IndentUnit.character, space, tab]
  | succ width =>
      cases other <;> cases unit <;>
        simp_all [indentWidth, IndentUnit.character, List.replicate_succ]

variable {kinds : List TokenKind} {scanner : Scanner}

/-- The indentation of a line is measured in the unit of the layout, which stays known. -/
theorem exists_measure?_eq {width : Nat} (starts : StartsLine after)
    (shows : scanner.Shows unit ('\n' :: (List.replicate width unit.character ++ after)) levels
      kinds) :
    ∃ measured, scanner.measure? = some (width, measured) ∧
      measured.Shows unit ('\n' :: (List.replicate width unit.character ++ after)) levels
        kinds := by
  rcases shows.unit with unknown | known
  · by_cases deeper : 0 < width
    · refine ⟨{ scanner with unit := some unit }, ?_, shows.setUnit⟩
      have here : indentWidth unit (List.replicate width unit.character ++ after) = width :=
        indentWidth_replicate width starts
      cases unit with
      | tab => simp [Scanner.measure?, shows.unread, unknown, here, deeper]
      | space =>
          have tabs : indentWidth .tab
              (List.replicate width IndentUnit.space.character ++ after) = 0 :=
            indentWidth_other (by simp) starts
          simp [Scanner.measure?, shows.unread, unknown, here, tabs, deeper]
    · have none : width = 0 := by omega
      subst none
      have tabs : indentWidth .tab after = 0 := indentWidth_replicate 0 starts
      have spaces : indentWidth .space after = 0 := indentWidth_replicate 0 starts
      exact ⟨scanner, by simp [Scanner.measure?, shows.unread, unknown, tabs, spaces], shows⟩
  · exact ⟨scanner, by
      simp [Scanner.measure?, shows.unread, known, indentWidth_replicate width starts], shows⟩

/-! ### Levels -/

/-- Levels that are deeper than those of a line are closed. -/
theorem closeLevels_append {width : Nat} {opened : List Nat}
    (deeper : ∀ level ∈ opened, width < level) (top : outer.headD 0 = width) :
    closeLevels width (opened ++ outer) = .ok (opened.length, outer) := by
  induction opened with
  | nil =>
      cases outer with
      | nil => rfl
      | cons level rest => simp_all [closeLevels]
  | cons level opened ih =>
      rcases List.forall_mem_cons.mp deeper with ⟨first, others⟩
      have next : ¬(opened ++ outer).headD 0 < width := by
        cases opened with
        | nil =>
            rw [List.nil_append, top]
            exact Nat.lt_irrefl width
        | cons second opened =>
            have secondDeeper := others second (by simp)
            simp only [List.cons_append, List.headD_cons]
            omega
      simp only [List.cons_append, closeLevels, if_neg (Nat.not_le.mpr first), if_neg next,
        ih others, Except.map, List.length_cons]

theorem Scanner.Shows.pushOutdents {text : List Char}
    (shows : scanner.Shows unit text levels kinds) (count : Nat) :
    ((List.replicate count ()).foldl (fun left _ => left.pushOutdent) scanner).Shows unit text
      levels (kinds ++ List.replicate count .outdent) := by
  induction count generalizing scanner kinds with
  | zero => simpa using shows
  | succ count ih =>
      have pushed : scanner.pushOutdent.Shows unit text levels (kinds ++ [.outdent]) :=
        (shows.move _).push _ _
      simpa [List.replicate_succ] using ih pushed

/-- What the next line adds when it is indented like an earlier one. -/
def closing (opened : List Nat) : List TokenKind :=
  if opened = [] then [.newline] else List.replicate opened.length .outdent

theorem exists_align_eq_of_lt {width : Nat} {text : List Char}
    (shows : scanner.Shows unit text levels kinds) (deeper : levels.headD 0 < width) :
    ∃ aligned, scanner.align width = .ok aligned ∧
      aligned.Shows unit text (width :: levels) (kinds ++ [.indent width]) := by
  have top : scanner.top < width := by simpa [Scanner.top, shows.levels] using deeper
  simp only [Scanner.align, if_neg (Nat.lt_asymm top), if_pos top, shows.levels]
  exact ⟨_, rfl, (((shows.move _).note _).push _ _).setLevels _⟩

theorem exists_align_eq_of_eq {width : Nat} {text : List Char} {opened : List Nat}
    (shows : scanner.Shows unit text (opened ++ outer) kinds)
    (deeper : ∀ level ∈ opened, width < level) (same : outer.headD 0 = width) :
    ∃ aligned, scanner.align width = .ok aligned ∧
      aligned.Shows unit text outer (kinds ++ closing opened) := by
  cases opened with
  | nil =>
      have top : scanner.top = width := by simpa [Scanner.top, shows.levels] using same
      simp only [Scanner.align, top, Nat.lt_irrefl, if_false]
      exact ⟨_, rfl, (shows.move _).push _ _⟩
  | cons level opened =>
      have top : width < scanner.top := by
        simpa [Scanner.top, shows.levels] using deeper level (by simp)
      have closed := closeLevels_append deeper same
      have noted := (shows.setLevels outer).note (.outdented (level :: opened).length width)
      simp only [Scanner.align, if_pos top, shows.levels, closed]
      exact ⟨_, rfl, noted.pushOutdents (level :: opened).length⟩

/-! ### The next line -/

variable {width : Nat} {found : List TokenKind}

theorem blankLine_eq_none (starts : StartsLine after)
    (unread : scanner.unread = '\n' :: (List.replicate width unit.character ++ after)) :
    Rule.blankLine scanner = none := by
  have indentation : ∀ character ∈ List.replicate width unit.character,
      isIndentation character = true := by
    intro character mem
    rw [List.eq_of_mem_replicate mem]
    cases unit <;> rfl
  have rest : (List.replicate width unit.character ++ after).dropWhile isIndentation = after := by
    rw [List.dropWhile_append_of_pos indentation]
    cases after with
    | nil => rfl
    | cons next more =>
        rcases starts next rfl with ⟨space, tab, _⟩
        exact List.dropWhile_cons_of_neg (by simp [isIndentation, space, tab])
  simp only [Rule.blankLine, unread, rest]
  split
  · exact absurd rfl (starts _ rfl).2.2
  · rfl

/-- A newline and the indentation behind it are read together. -/
theorem leads_indentation (starts : StartsLine after)
    (aligns : ∀ (scanner : Scanner) kinds, scanner.Shows unit after levels kinds →
      ∃ aligned : Scanner, scanner.align width = .ok aligned ∧
        aligned.Shows unit after outer (kinds ++ found)) :
    Leads unit ('\n' :: (List.replicate width unit.character ++ after)) levels found after
      outer := by
  have reads :
      after.length < ('\n' :: (List.replicate width unit.character ++ after)).length := by
    simp only [List.length_append, List.length_cons]
    omega
  refine leads_of_rule Step.exists_order_eq_indentation reads ?_
  intro scanner kinds shows
  rcases exists_measure?_eq starts shows with ⟨measured, isMeasured, shown⟩
  have read := (shown.move ⟨measured.position.line + 1, 1⟩).drop (width + 1)
  have rest :
      ('\n' :: (List.replicate width unit.character ++ after)).drop (width + 1) = after := by
    simp
  rw [rest] at read
  rcases aligns _ _ read with ⟨aligned, isAligned, shownAligned⟩
  refine ⟨?_, { aligned with markersAllowed := true }, fun inner => ?_, ?_⟩
  · have blank : Step.blank.Declines scanner := by
      intro inner
      simp [Step.rule, SimpleRule.run, blankLine_eq_none starts shows.unread]
    exact declines_beforeIndentation shows.unread (declines_endInterpolation shows.outside) blank
      (passesWord_of_noWord (by decide)) (by decide) (by decide)
  · have matched : Rule.indentation scanner =
        .ok (some { aligned with markersAllowed := true }) := by
      have unread : (measured.nextLine.drop (width + 1)).unread = after := read.unread
      unfold Rule.indentation
      simp only [isMeasured, unread]
      split
      · exact absurd rfl (starts _ rfl).1
      · exact absurd rfl (starts _ rfl).2.1
      · exact absurd rfl (starts _ rfl).2.2
      · exact congrArg (· >>= fun aligned => .ok (some { aligned with markersAllowed := true }))
          isAligned
    simp [Step.rule, CheckedRule.run, matched]
  · exact ⟨shownAligned.unread, shownAligned.levels, shownAligned.kinds, shownAligned.unit,
      shownAligned.running, shownAligned.outside⟩

/-- The next line is indented deeper than the ones before it. -/
theorem leads_deeper {blank : List (List Char)} (blankLines : ∀ line ∈ blank, IsBlankLine line)
    (starts : StartsLine after) (deeper : levels.headD 0 < width) :
    Leads unit (unlines blank ++ '\n' :: (List.replicate width unit.character ++ after)) levels
      [.indent width] after (width :: levels) :=
  (leads_blankLines blankLines).trans
    (leads_indentation starts fun _ _ shows => exists_align_eq_of_lt shows deeper)

/-- The next line is indented like an earlier one. -/
theorem leads_same {blank : List (List Char)} {opened : List Nat}
    (blankLines : ∀ line ∈ blank, IsBlankLine line) (starts : StartsLine after)
    (deeper : ∀ level ∈ opened, width < level) (same : outer.headD 0 = width) :
    Leads unit (unlines blank ++ '\n' :: (List.replicate width unit.character ++ after))
      (opened ++ outer) (closing opened) after outer :=
  (leads_blankLines blankLines).trans
    (leads_indentation starts fun _ _ shows => exists_align_eq_of_eq shows deeper same)

end

end Offside
