import Mathlib.Data.List.Forall2
import Offside.Proofs.Position.Text
import Offside.Token.Run

/-!
# Rules for lines and text blocks

A line of text is read as a run. The lines of a text block are runs, too, each behind a newline and
the indentation of the block; a line of blanks alone may begin earlier, but has no tags.
-/

namespace Offside

open Computing Position Scanner Text

section

variable {here : Frame} {scanner : Scanner} {inner : Scanning Unit}

/-- The text behind the first line is at the end of a line. -/
theorem endsLine_drop_firstLine (text : List Char) :
    ∀ next ∈ (text.drop (firstLine text).length).head?, next = '\n' := by
  induction text with
  | nil => simp
  | cons first rest ih =>
      by_cases newline : first = '\n'
      · simp [firstLine, newline]
      · have line : firstLine (first :: rest) = first :: firstLine rest :=
          List.takeWhile_cons_of_pos (by simpa using newline)
        rw [line, List.length_cons, List.drop_succ_cons]
        exact ih

/-- What a rule leaves that has matched: a scanner that has read something, or one that has
ended. -/
def Scanner.Left (here : Frame) (after : Scanner) : Prop :=
  Running here after ∧ after.unread.length < here.limit ∨ Stopped here after

/-- From a scanner that goes on a rule comes to another one, at least if it does not match. -/
def Leaves (here : Frame) (rule : Scanning Bool) : Prop :=
  ∀ scanner : Scanner, Running here scanner → Ensures rule scanner fun matched after =>
    if matched then Left here after else Running here after

/-! ### Lines of text -/

/-- A run that has been read as a part of a line leaves what follows the line, or what is behind the
bracket in it. -/
theorem left_of_ran {after : Scanner} {line rest : List Char} {column bound : Nat}
    (running : Running here scanner) (unread : scanner.unread = line ++ rest) (someLine : line ≠ [])
    (oneLine : '\n' ∉ line) (ends : ∀ next ∈ rest.head?, next = '\n') (part : bound ≤ line.length)
    (ran : Ran here { scanner with position := ⟨scanner.position.line, column⟩, unread := rest }
      bound (rest ++ here.behind) after) : Left here after := by
  have someLength := List.length_pos_iff.mpr someLine
  have within := running.within
  rw [unread, List.length_append] at within
  have oneLineRest : here.inside = true → '\n' ∉ rest := fun inside newline =>
    running.oneLine inside (unread ▸ List.mem_append_right _ newline)
  have left := ran.left
  dsimp only at left
  rcases left with ⟨ended, unreadAfter⟩ | ⟨ended, left, fits, oneLineLeft, unreadAfter, points⟩
  · refine .inl ⟨⟨fun inside => ran.interpolated.trans (running.interpolated inside),
      ended.trans running.ended, ?_, ?_, ran.located, ?_⟩, ?_⟩
    · rw [unreadAfter]
      omega
    · rwa [unreadAfter]
    · rcases running.stands with missed | stands
      · refine .inl (missed.mono (List.append_subset.mpr ?_))
        exact ⟨List.subset_append_of_subset_left _ ran.grows, List.subset_append_right _ _⟩
      · rw [unread] at stands
        refine ran.line.imp_right fun sameLine => ?_
        rw [unreadAfter]
        refine stands.toLineEnd ends ?_
        rw [sameLine, List.count_eq_zero.mpr oneLine]
        rfl
    · rw [unreadAfter]
      omega
  · refine .inr ⟨ended, ran.located, fun inside => ⟨?_, ?_, ?_⟩⟩
    · rw [unreadAfter, List.length_append]
      omega
    · rw [unreadAfter, List.mem_append, not_or]
      exact ⟨oneLineLeft, oneLineRest inside⟩
    · rwa [unreadAfter, ← List.cons_append, List.append_assoc]

theorem left_lineRun (visits : Visits here.limit inner) (running : Running here scanner)
    {html : Bool} (front : List Char) {value : List Char}
    (line : firstLine scanner.unread = front ++ value) (someText : front ++ value ≠ []) :
    Ensures (do
        addRun inner html value
        return true)
      ((scanner.drop (firstLine scanner.unread).length).right front.length)
      fun matched after => if matched then Left here after else Running here after := by
  have whole : firstLine scanner.unread ++ scanner.unread.drop (firstLine scanner.unread).length =
      scanner.unread := firstLine_append_drop
  have ends := endsLine_drop_firstLine scanner.unread
  have oneLine : '\n' ∉ firstLine scanner.unread := newline_not_mem_firstLine
  unfold Scanner.drop
  generalize scanner.unread.drop (firstLine scanner.unread).length = rest at whole ends ⊢
  rw [line] at whole oneLine
  have within := running.within
  rw [← whole, List.length_append, List.length_append] at within
  have began : Reading here (({ scanner with unread := rest } : Scanner).right front.length) value
      (rest ++ here.behind) (({ scanner with unread := rest } : Scanner).right front.length) := by
    refine ⟨rfl, rfl, rfl, List.Subset.refl _, running.located, ?_⟩
    refine running.stands.imp_right fun stands => ⟨?_, rfl⟩
    rw [← whole, List.append_assoc] at stands
    exact (stands.right fun newline => oneLine (List.mem_append_left _ newline)).shift
  have oneLineValue : '\n' ∉ value := fun newline => oneLine (List.mem_append_right _ newline)
  have read := @ran_addText here _ _ _ inner here.limit value.length visits (by omega) html
    (value.length + 1) 0 value [] [] began oneLineValue rfl (fun _ => rfl) (Nat.le_refl _)
  refine Ensures.bind read fun _ after ran => .pure ?_
  refine left_of_ran running whole.symm someText oneLine ends ?_ ran
  rw [List.length_append]
  exact Nat.le_add_left _ _

theorem Rule.leaves_text (visits : Visits here.limit inner) : Leaves here (Rule.text inner) := by
  intro scanner running
  refine .get_bind ?_
  extract_lets line run
  have runs : ∀ front value, line = front ++ value → front ++ value ≠ [] →
      Ensures (run front.length value) scanner fun matched after =>
        if matched then Left here after else Running here after :=
    fun front value split someText => .set_bind (left_lineRun visits running front split someText)
  have lineFound : line = firstLine scanner.unread := rfl
  clear_value run line
  subst lineFound
  split
  · next first rest split => exact runs ['|', ' '] _ split (by simp)
  · next rest _ split => exact runs ['|'] _ split (by simp)
  · next split => exact runs [] [' '] split (by simp)
  · next rest _ split => exact runs [' '] _ split (by simp)
  · exact .pure running

theorem Rule.leaves_html (visits : Visits here.limit inner) : Leaves here (Rule.html inner) := by
  intro scanner running
  refine .get_bind ?_
  split
  · next rest unread =>
      have someText : firstLine scanner.unread ≠ [] := by simp [unread, firstLine]
      exact .set_bind (left_lineRun visits running [] rfl someText)
  · exact .pure running

/-! ### Text blocks -/

/-- A line of a block is a row of the text without the indentation of the block. -/
structure BlockLine.Shows (unit : IndentUnit) (width : Nat) (line : BlockLine) (row : List Char) :
    Prop where
  text : line.text = row.drop width
  indented : line.indented = true → width ≤ indentWidth unit row
  blank : line.indented = false → isBlank row = true

theorem forall₂_of_takeBlock {unit : IndentUnit} {level width : Nat}
    {rows rest : List (List Char)} {block : List BlockLine}
    (taken : takeBlock unit level width rows = .taken block rest) :
    ∃ front, rows = front ++ rest ∧ List.Forall₂ (BlockLine.Shows unit width) block front := by
  induction rows generalizing block with
  | nil =>
      cases taken
      exact ⟨[], rfl, .nil⟩
  | cons row rows ih =>
      have more : ∀ line, BlockLine.Shows unit width line row →
          (takeBlock unit level width rows).cons line = .taken block rest →
          ∃ front, row :: rows = front ++ rest ∧
            List.Forall₂ (BlockLine.Shows unit width) block front := by
        intro line shows found
        cases scanned : takeBlock unit level width rows with
        | shallower => simp [scanned, BlockScan.cons] at found
        | taken others left =>
            simp only [scanned, BlockScan.cons, BlockScan.taken.injEq] at found
            rcases found with ⟨rfl, rfl⟩
            rcases ih scanned with ⟨front, rfl, all⟩
            exact ⟨row :: front, rfl, .cons shows all⟩
      unfold takeBlock at taken
      extract_lets found at taken
      split at taken
      · next wide => exact more _ ⟨rfl, fun _ => wide, by simp⟩ taken
      · split at taken
        · next blank => exact more _ ⟨rfl, by simp, fun _ => blank⟩ taken
        · split at taken
          · cases taken
          · cases taken
            exact ⟨[], rfl, .nil⟩

/-- The lines of a block up to some rows have been read: the tags among them are at their positions,
and the scanner is on the line in front of the rows that follow. -/
structure Scanner.InBlock (here : Frame) (start : Scanner) (rows : List (List Char))
    (behind : List Char) (scanner : Scanner) : Prop where
  interpolated : scanner.interpolated = start.interpolated
  located : Located here.text (scanner.allFound here)
  line : Missed here.text (scanner.allFound here) ∨
    OnLineOf here.text scanner.position (unlines rows ++ behind)
  left : scanner.ended = true ∨ scanner.ended = start.ended ∧ scanner.unread = start.unread

theorem Scanner.allFound_subset {after : Scanner} (grows : scanner.found ⊆ after.found) :
    scanner.allFound here ⊆ after.allFound here :=
  List.append_subset.mpr ⟨List.subset_append_of_subset_left _ grows, List.subset_append_right _ _⟩

theorem isBlank_drop {row : List Char} (blank : isBlank row = true) (width : Nat) :
    isBlank (row.drop width) = true := by
  rw [isBlank, List.all_eq_true] at blank ⊢
  exact fun character inRow => blank character (List.mem_of_mem_drop inRow)

/-- A line of a block is read, once the scanner is behind its newline. -/
theorem ran_blockLine (visits : Visits here.limit inner) {unit : IndentUnit} {width : Nat}
    {line : BlockLine} {row behind : List Char} (shows : line.Shows unit width row)
    (oneLine : '\n' ∉ row) (within : row.length ≤ here.limit)
    (located : Located here.text (scanner.allFound here))
    (points : Missed here.text (scanner.allFound here) ∨ PointsTo here.text
      ⟨scanner.position.line, 1⟩ (row ++ behind))
    (column : scanner.position.column = if line.indented then 1 + width else 1) :
    Ensures (addRun inner false line.text) scanner fun _ after =>
      Ran here scanner here.limit behind after := by
  cases indented : line.indented with
  | true =>
      have wide := (shows.indented indented).trans (indentWidth_le_length unit row)
      have place : scanner.position =
          (⟨scanner.position.line, 1⟩ : Position).right (row.take width).length := by
        rw [indented, if_pos rfl] at column
        rw [List.length_take_of_le wide, Position.right, ← column]
      have suffix : line.text <:+ row := shows.text ▸ List.drop_suffix width row
      have began : Reading here scanner line.text behind scanner := by
        refine ⟨rfl, rfl, rfl, List.Subset.refl _, located, points.imp_right fun points => ?_⟩
        refine ⟨PointsTo.standsAt ?_, rfl⟩
        rw [← List.take_append_drop width row, List.append_assoc] at points
        rw [place, shows.text]
        exact points.right fun newline => oneLine (List.mem_of_mem_take newline)
      exact @ran_addText here scanner scanner _ inner here.limit here.limit visits (Nat.le_refl _)
        false (line.text.length + 1) 0 line.text [] [] began
        (fun newline => oneLine (suffix.subset newline)) rfl (fun _ => rfl)
        (suffix.length_le.trans within)
  | false =>
      -- Such a line has no tags, so that its column does not matter.
      have noMarker : findMarker scanner.interpolated scanner.markersAllowed line.text = none :=
        findMarker_of_isBlank (shows.text ▸ isBlank_drop (shows.blank indented) width)
      refine .get_bind ?_
      rw [noMarker]
      refine .set ⟨rfl, List.subset_cons_self _ _, ⟨by rintro _ ⟨⟩, located⟩, .inr rfl,
        .inl ⟨rfl, rfl⟩⟩

theorem ensures_inBlock (visits : Visits here.limit inner) {unit : IndentUnit} {width : Nat}
    {start : Scanner} {first : Bool} {block dropped : List BlockLine} {rows : List (List Char)}
    {behind : List Char} (inBlock : InBlock here start rows behind scanner)
    (shows : List.Forall₂ (BlockLine.Shows unit width) (block ++ dropped) rows)
    (fits : ∀ row ∈ rows, '\n' ∉ row ∧ row.length ≤ here.limit) :
    Ensures (addLines inner width first block) scanner fun _ after =>
      ∃ left, List.Forall₂ (BlockLine.Shows unit width) dropped left ∧
        InBlock here start left behind after := by
  induction block generalizing scanner first rows with
  | nil => exact .pure ⟨rows, shows, inBlock⟩
  | cons line rest ih =>
      cases shows with
      | @cons _ row _ rowsRest lineShows showsRest =>
      rw [List.forall_mem_cons] at fits
      refine .get_bind ?_
      extract_lets next inside
      refine .set_bind ?_
      have begins : ∃ added : List Token, (∀ token ∈ added, ∀ name, token.kind ≠ .tag name) ∧
          (if first then inside else inside.push .newline next.position) =
            { scanner with
              position := ⟨scanner.position.line + 1, if line.indented then 1 + width else 1⟩
              found := added ++ scanner.found } := by
        dsimp only [inside]
        cases line.indented
        all_goals
          cases first with
          | true => exact ⟨[], by simp, rfl⟩
          | false => exact ⟨[⟨.newline, .start scanner.file next.position, _⟩], by simp, rfl⟩
      rcases begins with ⟨added, others, begins⟩
      rw [begins]
      have newFound : added ++ scanner.found ++ here.earlier = added ++ scanner.allFound here :=
        List.append_assoc ..
      have more : Missed here.text (scanner.allFound here) →
          Missed here.text (added ++ scanner.allFound here) :=
        fun missed => missed.mono (List.subset_append_right _ _)
      have split : unlines (row :: rowsRest) ++ behind =
          '\n' :: (row ++ (unlines rowsRest ++ behind)) := by
        simp [unlines]
      have line := inBlock.line
      rw [split] at line
      refine (ran_blockLine visits lineShows fits.1.1 fits.1.2
        (by rw [allFound, newFound]; exact inBlock.located.append others)
        (by rw [allFound, newFound]; exact line.imp more OnLineOf.pointsTo_next) rfl).bind ?_
      intro _ after ran
      refine ih ⟨ran.interpolated.trans inBlock.interpolated, ran.located, ?_, ?_⟩ showsRest fits.2
      · rcases line with missed | onLine
        · refine .inl (missed.mono (allFound_subset ?_))
          exact fun token inFound => ran.grows (List.mem_append_right added inFound)
        · refine ran.line.imp_right fun sameLine => ?_
          rw [← List.cons_append] at onLine
          refine onLine.past ?_
          rw [sameLine, List.count_cons_self, List.count_eq_zero.mpr fits.1.1]
      · rcases inBlock.left with ended | same
        · rcases ran.left with ⟨stays, _⟩ | ⟨ends, _⟩
          · exact .inl (stays.trans ended)
          · exact .inl ends
        · rcases ran.left with ⟨stays, unread⟩ | ⟨ends, _⟩
          · exact .inr ⟨stays.trans same.1, unread.trans same.2⟩
          · exact .inl ends

/-- Behind a block the scanner is in front of the rows that follow, unless a line of the block has
ended it. No line of blanks is left over before rows that follow. -/
theorem Scanner.InBlock.running_or_stopped {start : Scanner} {left rest : List (List Char)}
    (inBlock : InBlock here start left (unlines rest ++ here.behind) scanner)
    (unread : start.unread = unlines rest) (within : (unlines rest).length ≤ here.limit)
    (outside : ¬here.inside = true) (noneLeft : rest ≠ [] → left = []) :
    Running here (scanner.pushHere .endTextBlock) ∨
      Stopped here (scanner.pushHere .endTextBlock) := by
  have located : Located here.text ((scanner.pushHere .endTextBlock).allFound here) :=
    ⟨by rintro _ ⟨⟩, inBlock.located⟩
  cases ended : scanner.ended with
  | true => exact .inr ⟨ended, located, fun inside => absurd inside outside⟩
  | false =>
      rcases inBlock.left with ends | ⟨_, unreadAfter⟩
      · rw [ended] at ends
        cases ends
      · have sameUnread : (scanner.pushHere .endTextBlock).unread = unlines rest :=
          unreadAfter.trans unread
        refine .inl ⟨fun inside => absurd inside outside, ended, ?_,
          fun inside => absurd inside outside, located, ?_⟩
        · rwa [sameUnread]
        · rw [sameUnread]
          cases rest with
          | nil => exact .inr standsAt_nil
          | cons row more =>
              obtain rfl := noneLeft (List.cons_ne_nil _ _)
              refine inBlock.line.imp (fun missed => missed.mono (List.subset_cons_self _ _))
                fun onLine => OnLineOf.standsAt onLine ?_
              simp [unlines]

/-- The lines of a block are read, and what is left is at the end of its last line. -/
theorem ensures_takenBlock_running (visits : Visits here.limit inner)
    (running : Running here scanner) {others : List Char} (unread : scanner.unread = '\n' :: others)
    {unit : IndentUnit} {level width : Nat} {block : List BlockLine} {rest : List (List Char)}
    (taken : takeBlock unit level width (lines (scanner.unread.drop 1)) = .taken block rest) :
    Ensures (do
        addLines inner width true (if rest.isEmpty then dropEmptyEnd block else block)
        modify (·.pushHere .endTextBlock)
        return true)
      { scanner.pushHere .startTextBlock with unread := unlines rest }
      fun (_ : Bool) after => Running here after ∨ Stopped here after := by
  have outside : ¬here.inside = true := fun inside => running.oneLine inside (by simp [unread])
  rw [unread, List.drop_one, List.tail_cons] at taken
  rcases forall₂_of_takeBlock taken with ⟨front, rows, shows⟩
  have whole : scanner.unread = unlines front ++ unlines rest := by
    rw [unread, ← unlines_lines, rows]
    simp [unlines]
  have suffix : unlines rest <:+ scanner.unread := ⟨_, whole.symm⟩
  have fits : ∀ row ∈ front, '\n' ∉ row ∧ row.length ≤ here.limit := by
    intro row inFront
    have inRows : row ∈ lines others := rows ▸ List.mem_append_left _ inFront
    refine ⟨newline_not_mem_of_mem_lines row inRows, ?_⟩
    have within := running.within
    rw [unread, List.length_cons] at within
    exact (length_le_of_mem_lines inRows).trans (Nat.le_of_succ_le within)
  obtain ⟨dropped, parts, kept⟩ : ∃ dropped : List BlockLine,
      (if rest.isEmpty then dropEmptyEnd block else block) ++ dropped = block ∧
        (rest ≠ [] → dropped = []) := by
    split
    · next atEnd =>
        rcases isPrefix_dropEmptyEnd block with ⟨dropped, parts⟩
        exact ⟨dropped, parts, fun more => absurd (List.isEmpty_iff.mp atEnd) more⟩
    · exact ⟨[], List.append_nil _, fun _ => rfl⟩
  have begun : Running here (scanner.pushHere .startTextBlock) := running.push (by simp)
  generalize startFound : ({ scanner.pushHere .startTextBlock with unread := unlines rest } :
    Scanner) = start
  have inBlock : InBlock here start front (unlines rest ++ here.behind) start := by
    rw [← startFound]
    refine ⟨rfl, begun.located, begun.stands.imp_right fun stands => ?_, .inr ⟨rfl, rfl⟩⟩
    have same : (scanner.pushHere .startTextBlock).unread = unlines front ++ unlines rest := whole
    rw [same] at stands
    rw [← List.append_assoc]
    exact stands.line (by simp [← whole, unread])
  refine (ensures_inBlock visits inBlock (parts ▸ shows) fits).bind ?_
  rintro _ after ⟨left, showsLeft, read⟩
  have noneLeft : rest ≠ [] → left = [] := by
    intro more
    rw [kept more] at showsLeft
    cases showsLeft
    rfl
  exact .modify_bind (.pure (read.running_or_stopped (startFound ▸ rfl)
    (suffix.length_le.trans running.within) outside noneLeft))

theorem ensures_textBlock_running (visits : Visits here.limit inner) {budget : Nat}
    {requested : Option Nat} (running : Running here scanner)
    (atLine : requested ≠ none → ['\n'] <+: scanner.unread) :
    Ensures (Rule.textBlock (SimpleRule.run Rule.blankLine) inner budget requested) scanner
      fun _ after => Running here after ∨ Stopped here after := by
  induction budget generalizing scanner requested with
  | zero => exact .pure (.inl running)
  | succ budget ih =>
      refine .get_bind ?_
      have blanks : Ensures (repeatRule (SimpleRule.run Rule.blankLine) (scanner.unread.length + 1))
          scanner fun _ middle => Running here middle ∧
            (['\n'] <+: scanner.unread → ['\n'] <+: middle.unread) :=
        fun value middle done =>
          ⟨Rule.keeps_repeatRule Rule.keeps_blankLine.run _ _ running value middle done,
            (ensures_repeatBlank _ value middle done).2⟩
      refine blanks.bind ?_
      rintro _ middle ⟨skipped, staysAtLine⟩
      refine .modifyGet_bind ?_
      cases measured : middle.measure? with
      | none =>
          -- No width was requested, as the text does not begin with a newline.
          have notRequested : requested = none := by
            by_contra isRequested
            exact measure?_ne_none (staysAtLine (atLine isRequested)) measured
          subst notRequested
          exact .pure (.inl skipped)
      | some found =>
          rcases found with ⟨width, later⟩
          rcases exists_of_measure? measured with ⟨others, unit, unitAfter, unread, -, rfl⟩
          have withUnit : Running here { middle with unit := unitAfter } :=
            skipped.add [] (by simp) rfl rfl rfl rfl rfl
          have chosen : ∃ chosen, (requested <|> some width) = some chosen := by
            cases requested with
            | none => exact ⟨width, rfl⟩
            | some asked => exact ⟨asked, rfl⟩
          rcases chosen with ⟨chosen, choice⟩
          dsimp only
          rw [choice]
          refine .get_bind ?_
          split
          · exact .pure (.inl withUnit)
          · split
            · exact ih withUnit fun _ => ⟨others, unread.symm⟩
            · next block rest taken =>
                exact .set_bind (ensures_takenBlock_running visits withUnit unread taken)

end

end Offside
