import Offside.Proofs.Inline.Marker
import Offside.Proofs.Layout.Rules
import Offside.Proofs.Nesting.Text
import Offside.Proofs.TextBlock.Lines

/-!
# Reading a text block

A dot, a comment or a filter announces a text block. Blank lines behind it are passed over, and the
next line is measured. A width with which the scan stops leads to another scan with a smaller one,
until the width is the smallest of the block; then its lines are read as runs of text.
-/

namespace Offside

open Computing Text

/-- At a scanner stands what announces a text block; the other scanner is behind it and its
attributes. -/
inductive Scanner.Announces (scanner : Scanner) : TokenKind → Scanner → Prop where
  /-- Blanks behind the dot do not count. -/
  | dot {blanks rest : List Char} (unread : scanner.unread = '.' :: (blanks ++ '\n' :: rest))
      (blank : isBlankRow blanks = true) :
      scanner.Announces .dot
        ({ scanner.right 1 with unread := '\n' :: rest }.push .dot scanner.position)
  | comment {line rest : List Char} (unread : scanner.unread = '/' :: '/' :: (line ++ '\n' :: rest))
      (oneLine : '\n' ∉ line) (shown : line.head? ≠ some '-') :
      scanner.Announces (.comment (String.ofList line) true)
        ({ scanner with markersAllowed := true }.emit (.comment (String.ofList line) true)
          (2 + line.length))
  | hiddenComment {line rest : List Char}
      (unread : scanner.unread = '/' :: '/' :: '-' :: (line ++ '\n' :: rest))
      (oneLine : '\n' ∉ line) :
      scanner.Announces (.comment (String.ofList line) false)
        ({ scanner with markersAllowed := false }.emit (.comment (String.ofList line) false)
          (2 + ('-' :: line).length))
  | filter {text name : List Char} {length : Nat} {listed : Bool} {behind : Scanner}
      (unread : scanner.unread = ':' :: text) (named : Rule.filterName? text = some (name, length))
      (attributes : attributesStep [] (scanner.emit (.filter (String.ofList name)) (1 + length)) =
        .ok listed behind) :
      scanner.Announces (.filter (String.ofList name)) { behind with markersAllowed := false }

namespace Scanner

variable {scanner announced : Scanner}

/-! ### What the announcement leaves as it was -/

theorem collects_attributeEntry (scanner : Scanner) (text : List Char) :
    Gives (attributeEntry scanner text) fun found => ∃ kinds, scanner.Collects kinds found.1 := by
  refine gives_attributeEntry_of_added (fun next => ∃ kinds, scanner.Collects kinds next) ?_ ?_
    text
  · exact fun _ => ⟨[], by simp [kinds], rfl, rfl, rfl, rfl, rfl, rfl⟩
  · exact fun _ _ _ _ _ => ⟨_, kinds_push _ _ _, rfl, rfl, rfl, rfl, rfl, rfl⟩

theorem collects_attributeEntries (scanner : Scanner) (budget : Nat) (text : List Char) :
    Gives (attributeEntries scanner budget text) fun filled =>
      ∃ kinds, scanner.Collects kinds filled := by
  fun_induction attributeEntries scanner budget text with
  | case1 | case2 => exact .ok ⟨[], .refl⟩
  | case3 scanner budget text _ ih =>
      refine Gives.bind (collects_attributeEntry scanner text) ?_
      rintro ⟨next, rest⟩ ⟨_, entry⟩
      refine (ih next rest).mono ?_
      rintro filled ⟨_, others⟩
      exact ⟨_, entry.trans others⟩

theorem ensures_collects_attributes :
    Ensures (attributesStep []) scanner fun _ after =>
      ∃ kinds, Collects { scanner with unread := after.unread } kinds after := by
  refine ensures_of_gives ⟨[], .refl⟩ ?_
  unfold Rule.attributes
  split
  · refine Gives.bind (fun _ _ => trivial : Gives _ fun _ => True) ?_
    rintro ⟨body, rest⟩ -
    extract_lets opened
    refine Gives.bind (collects_attributeEntries _ _ _) ?_
    rintro filled ⟨kinds, entries⟩
    refine Gives.ok ?_
    rintro _ ⟨⟩
    have closed := entries.trans (filled.collects_push .endAttributes filled.position
      (filled.position.right 1))
    exact ⟨.startAttributes :: (kinds ++ [.endAttributes]),
      by simpa [opened, Scanner.kinds, push, Scanner.right] using closed.kinds, rfl,
      closed.interpolated, closed.allowed, closed.ended, closed.levels, closed.unit⟩
  · refine Gives.ok ?_
    rintro _ ⟨⟩

/-- An announcement adds its token, and those of its attributes. -/
theorem Announces.exists_collects {kind : TokenKind}
    (announces : scanner.Announces kind announced) :
    ∃ kinds, Collects { scanner with
      unread := announced.unread
      markersAllowed := announced.markersAllowed } (kind :: kinds) announced := by
  cases announces with
  | dot => exact ⟨[], collects_push ..⟩
  | comment => exact ⟨[], collects_push ..⟩
  | hiddenComment => exact ⟨[], collects_push ..⟩
  | filter unread named attributes =>
      rcases ensures_collects_attributes _ _ attributes with ⟨kinds, collects⟩
      refine ⟨kinds, ?_, rfl, collects.interpolated, rfl, collects.ended, collects.levels,
        collects.unit⟩
      simpa [Scanner.kinds, emit, push, Scanner.right, drop] using collects.kinds

end Scanner

/-! ### Which rule reads the announcement -/

section

variable {inner : Scanning Unit} {scanner announced : Scanner} {first : Char} {text : List Char}

theorem declines_text (unread : scanner.unread = first :: text) (noBar : first ≠ '|')
    (noSpace : first ≠ ' ') (noNewline : first ≠ '\n') : Step.text.Declines scanner := by
  intro inner
  have line : firstLine (first :: text) = first :: firstLine text := by
    simp [firstLine, noNewline]
  simp [Step.rule, Rule.text, get_bind_eq, unread, line, noBar, noSpace, pure, EStateM.pure]

theorem declines_html (unread : scanner.unread = first :: text) (noAngle : first ≠ '<') :
    Step.html.Declines scanner := by
  intro inner
  simp [Step.rule, Rule.html, get_bind_eq, unread, noAngle, pure, EStateM.pure]

/-- The steps before that for a filter. -/
def Step.beforeFilter : List Step :=
  Step.beforeTag ++ [.tag]

theorem Step.exists_order_eq_filter :
    ∃ rest, Step.order = Step.beforeFilter ++ .filter :: rest :=
  ⟨_, rfl⟩

theorem Step.exists_order_eq_dot :
    ∃ rest, Step.order = (Step.beforeFilter ++ [.filter, .id]) ++ .dot :: rest :=
  ⟨_, rfl⟩

theorem Step.exists_order_eq_comment :
    ∃ rest, Step.order =
      (Step.beforeIndentation ++ [.indentation, .text, .html]) ++ .comment :: rest :=
  ⟨_, rfl⟩

theorem declines_beforeFilter (unread : scanner.unread = first :: text)
    (noWord : isWord first = false) (noSign : first ∉ ['\n', ']', '+', '#']) :
    ∀ step ∈ Step.beforeFilter, step.Declines scanner := by
  simp only [List.mem_cons, List.not_mem_nil, or_false, not_or] at noSign
  rcases noSign with ⟨newline, bracket, plus, hash⟩
  have tags := declines_beforeTag unread (declines_endInterpolation_of_ne unread bracket)
    (declines_of_sign rfl unread newline) (passesWord_of_noWord noWord) plus hash
  simp only [Step.beforeFilter, List.forall_mem_append, List.forall_mem_cons]
  exact ⟨tags, declines_tag unread noWord, by simp⟩

theorem declines_beforeComment (unread : scanner.unread = '/' :: text) :
    ∀ step ∈ Step.beforeIndentation ++ [.indentation, .text, .html], step.Declines scanner := by
  have lines := declines_beforeIndentation unread
    (declines_endInterpolation_of_ne unread (by decide)) (declines_of_sign rfl unread (by decide))
    (passesWord_of_noWord (by decide)) (by decide) (by decide)
  simp only [List.forall_mem_append, List.forall_mem_cons]
  exact ⟨lines, declines_of_sign rfl unread (by decide),
    declines_text unread (by decide) (by decide) (by decide), declines_html unread (by decide),
    by simp⟩

theorem endOfLine?_of_blank (scanner : Scanner) {blanks rest : List Char}
    (blank : isBlankRow blanks = true) :
    scanner.endOfLine? ['.'] (blanks ++ '\n' :: rest) .dot =
      some (⟨.dot, .start scanner.file scanner.position, scanner.position.right 1⟩,
        { scanner with unread := '\n' :: rest, position := scanner.position.right 1 }) := by
  have behind : (blanks ++ '\n' :: rest).dropWhile isIndentation = '\n' :: rest :=
    List.dropWhile_append_of_pos (List.all_eq_true.mp blank)
  unfold Scanner.endOfLine?
  split
  · next others split =>
      rw [split] at behind
      simp [isIndentation] at behind
  · simp only [behind]
    rfl

/-- A step that reads something and then asks for a text block comes to what becomes of the
block. -/
theorem firstMatch_of_asks {before rest : List Step} {step : Step} {action : Scanning Bool}
    (declines : ∀ other ∈ before, other.Declines scanner)
    (asks : step.rule [] inner scanner = (do let _ ← action; return true) announced) :
    firstMatch [] inner (before ++ step :: rest) scanner =
      (do let _ ← action) announced := by
  rw [firstMatch_append_of_declines declines]
  simp only [firstMatch, consult, bind, EStateM.bind, asks]
  cases action announced <;> rfl

/-- What announces a text block is read, and then the block. -/
theorem firstMatch_of_announces {kind : TokenKind} (announces : scanner.Announces kind announced) :
    firstMatch [] inner Step.order scanner = (do let _ ← textBlockStep [] inner) announced := by
  cases announces with
  | @dot blanks rest unread blank =>
      have declines := declines_beforeFilter unread (by decide) (by decide)
      rcases Step.exists_order_eq_dot with ⟨others, order⟩
      rw [order]
      refine firstMatch_of_asks ?_ ?_
      · simp only [List.forall_mem_append, List.forall_mem_cons]
        exact ⟨declines, declines_of_sign rfl unread (by decide),
          declines_of_sign rfl unread (by decide), by simp⟩
      · refine get_bind_eq.trans ?_
        simp only [unread, endOfLine?_of_blank scanner blank]
        rfl
  | @comment line rest unread oneLine shown =>
      rcases Step.exists_order_eq_comment with ⟨others, order⟩
      rw [order]
      refine firstMatch_of_asks (declines_beforeComment unread) ?_
      refine get_bind_eq.trans ?_
      simp only [unread, firstLine_append oneLine (by simp [EndsLine] : EndsLine ('\n' :: rest))]
      split
      · simp at shown
      · rfl
  | @hiddenComment line rest unread oneLine =>
      rcases Step.exists_order_eq_comment with ⟨others, order⟩
      rw [order]
      refine firstMatch_of_asks (declines_beforeComment unread) ?_
      have whole : '\n' ∉ '-' :: line := by simp [oneLine]
      have cut : firstLine ('-' :: (line ++ '\n' :: rest)) = '-' :: line :=
        firstLine_append whole (by simp [EndsLine] : EndsLine ('\n' :: rest))
      refine get_bind_eq.trans ?_
      simp only [unread, cut]
      rfl
  | @filter text name length listed behind unread named attributes =>
      have declines := declines_beforeFilter unread (by decide) (by decide)
      rcases Step.exists_order_eq_filter with ⟨others, order⟩
      rw [order]
      refine firstMatch_of_asks declines ?_
      refine get_bind_eq.trans ?_
      simp only [unread, named]
      exact bind_of_ok attributes

end

/-! ### The first line -/

/-- The unit in which a line is measured. While none is known, the line decides. -/
def Scanner.unitAt (scanner : Scanner) (row : List Char) : IndentUnit :=
  scanner.unit.getD (if 0 < indentWidth .tab row then .tab else .space)

section

variable {scanner : Scanner} {text first : List Char} {blanks others : List (List Char)}

theorem blankStep_of_solid (unread : scanner.unread = '\n' :: text)
    (found : lines text = first :: others) (solid : isBlankRow first = false) :
    blankStep [] scanner = .ok false scanner := by
  have oneLine : '\n' ∉ first := newline_not_mem_of_mem_lines first (found ▸ List.mem_cons_self)
  have declines : Rule.blankLine scanner = none := by
    simp only [Rule.blankLine, unread, eq_append_of_lines_eq found]
    cases split : first.dropWhile isIndentation with
    | nil =>
        have blank : isBlankRow first = true :=
          List.all_eq_true.mpr (List.dropWhile_eq_nil_iff.mp split)
        simp [blank] at solid
    | cons next more =>
        have inFirst : next ∈ first :=
          (List.dropWhile_sublist _).subset (split ▸ List.mem_cons_self)
        have other : next ≠ '\n' := by
          rintro rfl
          exact oneLine inFirst
        rw [List.dropWhile_append, split]
        simp [other]
  show SimpleRule.run Rule.blankLine scanner = _
  rw [SimpleRule.run, declines]

/-- The lines in front of a block that are blank are passed over. -/
theorem exists_repeatRule_blankStep_eq (blank : ∀ row ∈ blanks, isBlankRow row = true)
    (solid : isBlankRow first = false) {budget : Nat} (enough : blanks.length < budget)
    (unread : scanner.unread = '\n' :: text) (found : lines text = blanks ++ first :: others) :
    ∃ skipped behind, lines behind = first :: others ∧
      Scanner.Collects { scanner with unread := '\n' :: behind } [] skipped ∧
      repeatRule (blankStep []) budget scanner = .ok () skipped := by
  induction blanks generalizing scanner text budget with
  | nil =>
      refine ⟨scanner, text, found, ⟨by simp [Scanner.kinds], unread, rfl, rfl, rfl, rfl, rfl⟩, ?_⟩
      exact repeatRule_of_declines (blankStep_of_solid unread found solid) budget
  | cons row blanks ih =>
      rcases List.forall_mem_cons.mp blank with ⟨blankRow, blankRows⟩
      rcases Nat.exists_eq_add_of_le' (Nat.zero_lt_of_lt enough) with ⟨budget, rfl⟩
      have following : ∃ next rows, blanks ++ first :: others = next :: rows := by
        cases blanks <;> simp
      rcases following with ⟨next, rows, following⟩
      rw [List.cons_append, following] at found
      rcases exists_of_lines_eq found with ⟨behind, split, foundBehind⟩
      have stepped : blankStep [] scanner =
          .ok true { scanner.nextLine with unread := '\n' :: behind } := by
        have dropped : (row ++ '\n' :: behind).dropWhile isIndentation = '\n' :: behind :=
          List.dropWhile_append_of_pos (List.all_eq_true.mp blankRow)
        show SimpleRule.run Rule.blankLine scanner = _
        simp [SimpleRule.run, Rule.blankLine, unread, split, dropped]
      have enoughLeft : blanks.length < budget := by simpa using enough
      have unreadNext : ({ scanner.nextLine with unread := '\n' :: behind } : Scanner).unread =
          '\n' :: behind := rfl
      rcases ih blankRows enoughLeft unreadNext (foundBehind.trans following.symm)
        with ⟨skipped, rest, foundRest, collects, skips⟩
      exact ⟨skipped, rest, foundRest, ⟨collects.kinds, collects.unread, collects.interpolated,
        collects.allowed, collects.ended, collects.levels, collects.unit⟩,
        (bind_of_ok stepped).trans skips⟩

theorem measure?_eq_unitAt (unread : scanner.unread = '\n' :: text)
    (found : lines text = first :: others)
    (indented : 0 < indentWidth (scanner.unitAt first) first) :
    scanner.measure? = some (indentWidth (scanner.unitAt first) first,
      { scanner with unit := some (scanner.unitAt first) }) := by
  have widths : ∀ unit, indentWidth unit text = indentWidth unit first := fun unit => by
    rw [eq_append_of_lines_eq found, indentWidth_append_unlines]
  simp only [Scanner.measure?, unread, widths]
  cases unit : scanner.unit with
  | some known =>
      have same : scanner.unitAt first = known := by simp [Scanner.unitAt, unit]
      have still : { scanner with unit := some known } = scanner := by rw [← unit]
      simp only [same, ← unread, still]
  | none =>
      by_cases tabs : 0 < indentWidth .tab first
      · simp [Scanner.unitAt, unit, tabs]
      · simp only [Scanner.unitAt, unit, tabs, Option.getD_none, if_false] at indented ⊢
        simp [indented]

end

/-! ### The width -/

section

variable {inner : Scanning Unit} {budget width measuredWidth : Nat} {requested : Option Nat}
  {start skipped measured : Scanner}

/-- What becomes of the lines that a scan takes. -/
def takeRows (inner : Scanning Unit) (width : Nat) (block : List BlockLine)
    (rest : List (List Char)) : Scanning Bool := do
  modify fun scanner => { scanner.pushHere .startTextBlock with unread := unlines rest }
  addLines inner width true (if rest.isEmpty then dropEmptyEnd block else block)
  modify (·.pushHere .endTextBlock)
  return true

/-- A scan with a width that is deeper than the level. -/
theorem textBlock_succ_eq {blank : Scanning Bool}
    (skips : repeatRule blank (start.unread.length + 1) start = .ok () skipped)
    (measures : skipped.measure? = some (measuredWidth, measured))
    (chosen : requested.getD measuredWidth = width) (deeper : measured.top < width) :
    Rule.textBlock blank inner (budget + 1) requested start =
      (match takeBlock (measured.unit.getD .space) measured.top width
          (lines (measured.unread.drop 1)) with
        | .shallower found => Rule.textBlock blank inner budget (some found)
        | .taken block rest => takeRows inner width block rest) measured := by
  have choice : (requested <|> some measuredWidth) = some width := by
    rw [← chosen]
    cases requested <;> rfl
  refine get_bind_eq.trans ?_
  refine (bind_of_ok skips).trans ?_
  refine modifyGet_bind_eq.trans ?_
  simp only [measures, choice]
  refine get_bind_eq.trans ?_
  rw [if_neg (Nat.not_le.mpr deeper)]
  cases takeBlock (measured.unit.getD .space) measured.top width
    (lines (measured.unread.drop 1)) <;> rfl

variable {unit : IndentUnit} {text first : List Char} {others block : List (List Char)}

/-- Whatever width of a line of the block a scan begins with, the lines are taken with the smallest
one. -/
theorem textBlock_eq_takeRows (unread : measured.unread = '\n' :: text)
    (found : lines text = first :: others) (known : measured.unit = some unit)
    (solid : ∀ row ∈ first :: others, isBlankRow row = false → isBlank row = false)
    (solidFirst : isBlankRow first = false) (deeper : measured.top < indentWidth unit first)
    (skips : repeatRule (blankStep []) (start.unread.length + 1) start = .ok () skipped)
    (measures : skipped.measure? = some (measuredWidth, measured))
    (chosen : requested.getD measuredWidth = width)
    (isBlock : blockRows unit measured.top (first :: others) = block)
    (inBlock : width ∈ rowWidths unit block) (enough : width ≤ budget) :
    Rule.textBlock (blankStep []) inner (budget + 1) requested start =
      takeRows inner (sharedWidth unit block) (block.map (blockLine unit (sharedWidth unit block)))
        (rowsBehind unit measured.top (first :: others)) measured := by
  have deep : ∀ other ∈ rowWidths unit block, measured.top < other :=
    isBlock ▸ fun _ => lt_of_mem_rowWidths
  have rows : lines (measured.unread.drop 1) = first :: others := by
    rw [unread, List.drop_one, List.tail_cons, found]
  induction budget generalizing requested start skipped measuredWidth width with
  | zero =>
      have positive := deep width inBlock
      omega
  | succ budget ih =>
      rw [textBlock_succ_eq skips measures chosen (deep width inBlock), rows, known,
        Option.getD_some]
      by_cases least : ∀ other ∈ rowWidths unit block, width ≤ other
      · rw [takeBlock_eq_taken solid (deep width inBlock) (isBlock ▸ least), isBlock,
          sharedWidth_eq_of_forall_le inBlock least]
      · have narrow : ∃ other ∈ rowWidths unit block, other < width := by simpa using least
        rcases exists_takeBlock_eq_shallower solid (isBlock ▸ narrow)
          with ⟨narrower, mem, less, stops⟩
        rw [stops]
        -- The block is read again from its first line, which is measured as before.
        have again := repeatRule_of_declines (blankStep_of_solid unread found solidFirst)
          (measured.unread.length + 1)
        have same : measured.unitAt first = unit := by simp [Scanner.unitAt, known]
        have measuresAgain := measure?_eq_unitAt unread found (by rw [same]; omega)
        rw [same, ← known] at measuresAgain
        exact ih again measuresAgain rfl (isBlock ▸ mem)
          (Nat.le_of_lt_succ (Nat.lt_of_lt_of_le less enough))

theorem length_le_length_unlines (rows : List (List Char)) :
    rows.length ≤ (unlines rows).length := by
  induction rows with
  | nil => exact Nat.le_refl _
  | cons row rows ih =>
      simp only [unlines_cons, List.length_cons, List.length_append]
      omega

theorem isBlankRow_eq_false_of_dropWhile_eq {text : List Char}
    (follows : (lines text).dropWhile isBlankRow = first :: others) : isBlankRow first = false := by
  have fails := List.head?_dropWhile_not isBlankRow (lines text)
  simpa [follows] using fails

/-- There are fewer blank lines in front of a block than characters that are left. -/
theorem length_takeWhile_isBlankRow_lt (text : List Char) :
    ((lines text).takeWhile isBlankRow).length < ('\n' :: text).length + 1 := by
  have fewer := (List.takeWhile_prefix isBlankRow (l := lines text)).length_le
  have count := length_le_length_unlines (lines text)
  rw [unlines_lines] at count
  omega

/-- Where the first line that is not blank is indented deeper than the level, there is a block. -/
theorem exists_textBlockStep_eq (inner : Scanning Unit) {announced : Scanner} {rest : List Char}
    (unread : announced.unread = '\n' :: rest)
    (follows : (lines rest).dropWhile isBlankRow = first :: others)
    (solid : ∀ row ∈ first :: others, isBlankRow row = false → isBlank row = false)
    (isUnit : announced.unitAt first = unit) (deeper : announced.top < indentWidth unit first)
    (isBlock : blockRows unit announced.top (first :: others) = block) :
    ∃ measured, Scanner.Collects
        { announced with unread := measured.unread, unit := some unit } [] measured ∧
      textBlockStep [] inner announced =
        takeRows inner (sharedWidth unit block)
          (block.map (blockLine unit (sharedWidth unit block)))
          (rowsBehind unit announced.top (first :: others)) measured := by
  have split := @List.takeWhile_append_dropWhile _ isBlankRow (lines rest)
  rw [follows] at split
  have blank : ∀ row ∈ (lines rest).takeWhile isBlankRow, isBlankRow row = true :=
    fun _ => List.mem_takeWhile_imp
  have solidFirst := isBlankRow_eq_false_of_dropWhile_eq follows
  have enough := length_takeWhile_isBlankRow_lt rest
  rw [← unread] at enough
  rcases exists_repeatRule_blankStep_eq blank solidFirst enough unread split.symm
    with ⟨skipped, behind, found, collects, skips⟩
  have sameUnit : skipped.unitAt first = unit := by
    rw [← isUnit, Scanner.unitAt, collects.unit, Scanner.unitAt]
  have sameTop : skipped.top = announced.top := by
    rw [Scanner.top, collects.levels, Scanner.top]
  have measures := measure?_eq_unitAt collects.unread found (by rw [sameUnit]; omega)
  rw [sameUnit] at measures
  have inBlock : indentWidth unit first ∈ rowWidths unit block := by
    have fits : isBlockRow unit announced.top first = true := by simp [isBlockRow, deeper]
    rw [← isBlock, blockRows_cons_of_pos fits]
    exact mem_rowWidths_cons.mpr (.inl ⟨solidFirst, rfl⟩)
  have width : indentWidth unit first ≤ announced.unread.length + 1 := by
    have inLines : first ∈ lines rest := split ▸ by simp
    have short := length_le_of_mem_lines inLines
    have within := indentWidth_le_length unit first
    rw [unread, List.length_cons]
    omega
  refine ⟨{ skipped with unit := some unit }, ⟨collects.kinds, rfl, collects.interpolated,
    collects.allowed, collects.ended, collects.levels, rfl⟩, ?_⟩
  refine get_bind_eq.trans ?_
  rw [← sameTop] at deeper isBlock ⊢
  have unreadMeasured : ({ skipped with unit := some unit } : Scanner).unread = '\n' :: behind :=
    collects.unread
  exact textBlock_eq_takeRows unreadMeasured found rfl solid solidFirst deeper skips measures
    Option.getD_none isBlock inBlock width

end

end Offside
