import Offside.Proofs.Provenance.Words

/-!
# Rules for what stands in brackets, and for the layout

A text in brackets may go over several lines. The entries of an attribute list stand on these lines,
and the scanner is behind the closing bracket in the end.
-/

namespace Offside

open Computing Scanner Text

section

variable {log : Array Event} {corner : Position} {scanner : Scanner}

/-- A text that is still to be read ends at a place that the scanner has room for. -/
theorem Scanner.HasRoom.past (room : scanner.HasRoom corner) {text : List Char}
    (starts : text <+: scanner.unread) : corner.Within (scanner.position.past text) := by
  have fewer := starts.sublist.count_le '\n'
  have shorter := starts.length_le
  have column := scanner.position.column_past_le text
  rcases room with ⟨lines, columns⟩
  unfold lastLine at lines
  unfold lastColumn at columns
  refine ⟨?_, by omega⟩
  rw [Position.line_past]
  omega

/-- The text between two brackets and what follows it. -/
theorem checks_bracketed {opening text : List Char} (close : Char) (room : scanner.HasRoom corner)
    (unread : scanner.unread = opening ++ text) :
    Checks (Reports corner scanner) (fun cut => cut) (fun cut => text = cut.1 ++ close :: cut.2)
      ((scanner.logged log).bracketed opening close text)
      (scanner.bracketed opening close text) := by
  have reports {front : List Char} (starts : front <+: scanner.unread) (cause : TokenFault) :
      Reports corner scanner (scanner.faultAt (scanner.position.past front) cause) := by
    refine reports_faultAt ?_ (room.past starts) cause
    rw [Position.line_past]
    exact Nat.le_add_right _ _
  rw [bracketed_logged]
  unfold Scanner.bracketed
  split
  · next found => exact .ok rfl (Bracket.eq_append_of_find_eq_closed found)
  · exact .error (reports (unread ▸ List.prefix_rfl) _)
  · next body expected found mismatched =>
      rcases Bracket.exists_append_of_find_eq_mismatched mismatched with ⟨rest, rfl⟩
      rw [← List.append_assoc] at unread
      exact .error (reports (unread ▸ List.prefix_append (opening ++ body) (found :: rest)) _)

end

/-! ### Attribute lists -/

namespace AttributeCursor

/-- The later cursor is further down, and there is no more left than there was. -/
structure Leads (before after : AttributeCursor) : Prop where
  forward : before.position.line ≤ after.position.line
  lines : after.position.line + after.rest.count '\n' ≤
    before.position.line + before.rest.count '\n'
  columns : after.position.column + after.rest.length ≤
    before.position.column + before.rest.length
  suffix : after.rest <:+ before.rest

variable {before middle after : AttributeCursor}

theorem Leads.refl : Leads before before :=
  ⟨Nat.le_refl _, Nat.le_refl _, Nat.le_refl _, List.suffix_rfl⟩

theorem Leads.trans (first : Leads before middle) (second : Leads middle after) :
    Leads before after :=
  ⟨Nat.le_trans first.forward second.forward, Nat.le_trans second.lines first.lines,
    Nat.le_trans second.columns first.columns, second.suffix.trans first.suffix⟩

/-- A text is read from the front. -/
theorem leads_append {front rest : List Char} {position : Position} :
    Leads ⟨front ++ rest, position⟩ ⟨rest, position.past front⟩ := by
  have column := position.column_past_le front
  constructor
  · simp only [Position.line_past]
    omega
  · simp only [Position.line_past, List.count_append]
    omega
  · simp only [List.length_append]
    omega
  · exact List.suffix_append front rest

/-- One character is read, which does not count as a newline. -/
theorem leads_right {character : Char} {rest : List Char}
    (unread : before.rest = character :: rest) : Leads before ⟨rest, before.position.right 1⟩ := by
  refine ⟨Nat.le_refl _, ?_, ?_, unread ▸ List.suffix_cons character rest⟩
  · have fewer := (List.sublist_cons_self character rest).count_le '\n'
    simp only [unread, Position.right]
    omega
  · simp only [unread, List.length_cons, Position.right]
    omega

theorem leads_while (condition : Char → Bool) {rest : List Char} {position : Position} :
    Leads ⟨rest, position⟩
      ⟨rest.dropWhile condition, position.past (rest.takeWhile condition)⟩ := by
  have parts : Leads ⟨rest.takeWhile condition ++ rest.dropWhile condition, position⟩
      ⟨rest.dropWhile condition, position.past (rest.takeWhile condition)⟩ :=
    leads_append
  rwa [List.takeWhile_append_dropWhile] at parts

theorem leads_skip : Leads before before.skip :=
  leads_while isSeparator

theorem leads_readQuoted (quote : Char) (text : List Char) (position : Position) :
    Leads ⟨text, position⟩ (readQuoted quote text position).2 := by
  fun_induction readQuoted quote text position with
  | case1 => exact .refl
  | case2 escaped rest position value cursor read ih =>
      rw [read] at ih
      have opened : Leads ⟨'\\' :: escaped :: rest, position⟩ ⟨escaped :: rest, position.right 1⟩ :=
        leads_right rfl
      exact (opened.trans (leads_right rfl)).trans ih
  | case3 => exact leads_right rfl
  | case4 character rest position _ _ value cursor read ih =>
      rw [read] at ih
      have behind : Leads ⟨[character] ++ rest, position⟩ ⟨rest, position.past [character]⟩ :=
        leads_append
      exact behind.trans ih

theorem leads_readName : Leads before (readName before).2.2 := by
  unfold readName
  split
  · exact .refl
  · next first rest unread =>
      split
      · have named := (leads_right unread).trans (leads_while (· ≠ first))
        dsimp only
        split
        · next behind => rwa [behind] at named
        · next others behind => exact named.trans (leads_right behind)
      · exact leads_while _

theorem leads_readValue : Leads before (readValue before).2.2 := by
  unfold readValue
  split
  · exact .refl
  · next first rest unread =>
      split
      · exact (leads_right unread).trans (leads_readQuoted first rest _)
      · exact leads_while _

end AttributeCursor

/-- Behind a text in brackets, of which the first ones take no more columns than they have
characters. -/
theorem goesTo_past {corner : Position} {scanner : Scanner} {front body rest : List Char}
    {close : Char} {count : Nat} (room : scanner.HasRoom corner) (fits : count ≤ front.length)
    (unread : scanner.unread = front ++ body ++ close :: rest) :
    GoesTo corner scanner { ((scanner.right count).past body).right 1 with unread := rest } := by
  have line : (((scanner.right count).past body).right 1).position.line =
      scanner.position.line + body.count '\n' :=
    Position.line_past _ _
  have column : (((scanner.right count).past body).right 1).position.column ≤
      scanner.position.column + count + body.length + 1 :=
    Nat.succ_le_succ (Position.column_past_le _ _)
  refine (GoesTo.refl room).move rfl rfl rfl (line ▸ Nat.le_add_right _ _) ?_
  rcases room with ⟨lines, columns⟩
  simp only [lastLine, lastColumn, unread, List.count_append, List.count_cons, List.length_append,
    List.length_cons] at lines columns
  refine ⟨?_, ?_⟩
  · simp only [lastLine, line]
    omega
  · simp only [lastColumn]
    omega

section

variable {log : Array Event} {corner : Position} {scanner : Scanner}

namespace AttributeCursor.Leads

variable {text : List Char} {cursor : AttributeCursor}

/-- A scanner that has room for a list has room for what a cursor leaves of it. -/
theorem hasRoom (leads : Leads ⟨text, scanner.position⟩ cursor)
    (room : (scanner.putBack text).HasRoom corner) :
    (({ scanner with position := cursor.position } : Scanner).putBack cursor.rest).HasRoom
      corner := by
  rcases room with ⟨lines, columns⟩
  have line := leads.lines
  have column := leads.columns
  have shorter := leads.suffix.length_le
  simp only [lastLine, lastColumn, putBack, List.count_append, List.length_append] at *
  exact ⟨by simp only [lastLine, List.count_append]; omega,
    by simp only [lastColumn, List.length_append]; omega⟩

theorem goesTo (leads : Leads ⟨text, scanner.position⟩ cursor)
    (room : (scanner.putBack text).HasRoom corner) :
    GoesTo corner scanner { scanner with position := cursor.position } :=
  (GoesTo.refl room.of_putBack).move rfl rfl rfl leads.forward (leads.hasRoom room).of_putBack

theorem reports_faultAt (leads : Leads ⟨text, scanner.position⟩ cursor)
    (room : (scanner.putBack text).HasRoom corner) (cause : TokenFault) :
    Reports corner scanner (scanner.faultAt cursor.position cause) :=
  Scanner.reports_faultAt leads.forward (leads.hasRoom room).within cause

/-- Behind the value of an entry its token is added, and the separators are passed over. -/
theorem checks_push {entry : AttributeCursor} (begins : Leads ⟨text, scanner.position⟩ entry)
    (leads : Leads ⟨text, scanner.position⟩ cursor)
    (room : (scanner.putBack text).HasRoom corner) (kind : TokenKind) :
    Checks (Reports corner scanner) (fun found => (found.1.logged log, found.2))
      (fun found =>
        GoesTo corner scanner found.1 ∧ (found.1.putBack found.2).HasRoom corner)
      (pure ({ ({ scanner.logged log with position := cursor.position }).push kind
        entry.position with position := cursor.skip.position }, cursor.skip.rest))
      (pure ({ ({ scanner with position := cursor.position }).push kind
        entry.position with position := cursor.skip.position }, cursor.skip.rest)) := by
  have further := leads.trans leads_skip
  have left := further.hasRoom room
  have pushed := (leads.goesTo room).push kind begins.forward (begins.hasRoom room).within
  exact .ok rfl ⟨pushed.move rfl rfl rfl leads_skip.forward left.of_putBack, left⟩

end AttributeCursor.Leads

/-- One entry of an attribute list, and what is left of the list. -/
theorem checks_attributeEntry {text : List Char}
    (room : (scanner.putBack text).HasRoom corner) :
    Checks (Reports corner scanner) (fun found => (found.1.logged log, found.2))
      (fun found =>
        GoesTo corner scanner found.1 ∧ (found.1.putBack found.2).HasRoom corner)
      (attributeEntry (scanner.logged log) text) (attributeEntry scanner text) := by
  unfold attributeEntry
  rw [position_logged]
  extract_lets entry
  have skipped : AttributeCursor.Leads ⟨text, scanner.position⟩ entry := AttributeCursor.leads_skip
  split
  · exact .ok rfl ⟨skipped.goesTo room, (skipped.hasRoom room).of_putBack⟩
  split
  next nameQuote name behind read =>
  have named : AttributeCursor.Leads ⟨text, scanner.position⟩ behind := by
    have leads : entry.Leads (readName entry).2.2 := AttributeCursor.leads_readName
    rw [read] at leads
    exact skipped.trans leads
  extract_lets invalid behindName valueChanged checkChanged value check
  have added : Checks (Reports corner scanner) (fun found => (found.1.logged log, found.2))
      (fun found =>
        GoesTo corner scanner found.1 ∧ (found.1.putBack found.2).HasRoom corner)
      (valueChanged ()) (value ()) := by
    dsimp only [valueChanged, value]
    have behindSkipped : AttributeCursor.Leads ⟨text, scanner.position⟩ behindName :=
      named.trans AttributeCursor.leads_skip
    split
    case' h_1 rest equals =>
      have leads := behindSkipped.trans ((AttributeCursor.leads_right equals).trans
        (AttributeCursor.leads_skip.trans AttributeCursor.leads_readValue))
    case' h_2 => have leads := behindSkipped
    all_goals
      split
      · split
        · split
          · exact .throw_bind (leads.reports_faultAt room _)
          · exact skipped.checks_push leads room _
        · exact skipped.checks_push leads room _
      · exact skipped.checks_push leads room _
  split
  · exact .throw_bind (named.reports_faultAt room _)
  · dsimp only [checkChanged, check]
    split
    · exact .throw_bind (named.reports_faultAt room _)
    · exact added

theorem checks_attributeEntries (budget : Nat) {scanner : Scanner} {text : List Char}
    (room : (scanner.putBack text).HasRoom corner) :
    Checks (Reports corner scanner) (logged log) (GoesTo corner scanner)
      (attributeEntries (scanner.logged log) budget text)
      (attributeEntries scanner budget text) := by
  induction budget generalizing scanner text with
  | zero => exact .ok rfl (.refl room.of_putBack)
  | succ budget ih =>
      cases text with
      | nil => exact .ok rfl (.refl room.of_putBack)
      | cons first rest =>
          refine Checks.bind (checks_attributeEntry room) ?_
          rintro ⟨next, others⟩ ⟨goes, further⟩
          exact (ih further).mono (fun _ => goes.reports) fun _ => goes.trans

end

namespace Rule

theorem goes_interpolation : CheckedRule.Goes interpolation := by
  intro log corner scanner room
  unfold interpolation
  dsimp +instances only [unread_logged]
  split
  · next inside unread =>
      have opening : scanner.unread = ['#', '\x7b'] ++ inside := unread
      refine Checks.bind (checks_bracketed '\x7d' room opening) ?_
      rintro ⟨body, rest⟩ rfl
      have behind : scanner.unread = ['#', '\x7b'] ++ body ++ '\x7d' :: rest := unread
      exact .matched rfl ((goesTo_past room (Nat.le_refl 2) behind).pushFrom room _)
  · exact .declined

theorem goes_attributes : CheckedRule.Goes attributes := by
  intro log corner scanner room
  unfold attributes
  dsimp +instances only [unread_logged]
  split
  · next inside unread =>
      have opening : scanner.unread = ['('] ++ inside := unread
      refine Checks.bind (checks_bracketed ')' room opening) ?_
      rintro ⟨body, rest⟩ rfl
      -- The entries leave a column for the closing bracket.
      let inner : Position := ⟨corner.line, corner.column - 1⟩
      have further : corner.Within inner := ⟨Nat.le_refl _, Nat.sub_le _ _⟩
      have positive : corner.column = inner.column + 1 := by
        have columns := room.2
        simp only [lastColumn, unread, List.length_cons] at columns
        simp only [inner]
        omega
      have enough : (Scanner.putBack ({ scanner.right 1 with unread := rest }.push .startAttributes
          scanner.position) body).HasRoom inner := by
        rcases room with ⟨lines, columns⟩
        simp only [lastLine, lastColumn, unread, List.count_append, List.count_cons,
          List.length_append, List.length_cons] at lines columns
        refine ⟨?_, ?_⟩
        · simp only [lastLine, putBack, push, right, Position.right, List.count_append, inner]
          omega
        · simp only [lastColumn, putBack, push, right, Position.right, List.length_append, inner]
          omega
      have opened : GoesTo corner scanner { scanner.right 1 with unread := rest } :=
        (GoesTo.refl room).move rfl rfl rfl (Nat.le_refl _)
          ((enough.of_putBack).mono further)
      have entered := opened.pushFrom room .startAttributes
      refine Checks.bind ((checks_attributeEntries (body.length + 1) enough).mono
        (fun _ shown => entered.reports (shown.mono further)) fun _ goes => goes) ?_
      intro filled goes
      have closed : Scanner.HasRoom corner (filled.right 1) := by
        rcases goes.room with ⟨lines, columns⟩
        refine ⟨lines, ?_⟩
        simp only [lastColumn, right, Position.right] at columns ⊢
        omega
      have behind : GoesTo corner scanner (filled.right 1) :=
        (entered.trans (goes.mono further)).move rfl rfl rfl (Nat.le_refl _) closed
      exact .matched rfl (behind.push _ behind.forward (goes.room.mono further).within)
  · exact .declined

theorem goes_call : CheckedRule.Goes call := by
  intro log corner scanner room
  unfold call
  rw [unread_logged]
  split
  · next inside unread =>
      extract_lets blanks behind name rest movedChanged namedChanged plainChanged spaces moved
        named plain
      have whole : scanner.unread = '+' :: (blanks ++ (name ++ rest)) := by
        rcases (List.takeWhile_prefix _ : name <+: behind) with ⟨others, cut⟩
        have left : rest = others := by rw [← @List.drop_left _ name others, cut]
        rw [unread, left, cut, List.takeWhile_append_dropWhile]
      have goes : GoesTo corner scanner named := by
        refine (GoesTo.refl room).read rfl rfl rfl rfl ?_ ?_
        · rw [whole, ← List.append_assoc, ← List.cons_append]
          exact List.suffix_append _ rest
        · simp only [lastColumn, whole, List.length_cons, List.length_append]
          show scanner.position.column + (1 + blanks.length + name.length) + 2 * rest.length ≤ _
          omega
      split
      · exact .declined
      split
      · next arguments bracket =>
          have whole : (spaces ++ ['(']) ++ arguments = rest := by
            rw [List.append_assoc, List.singleton_append, ← bracket]
            exact List.takeWhile_append_dropWhile
          have opening : named.unread = spaces ++ ['('] ++ arguments := whole.symm
          refine Checks.bind ((checks_bracketed ')' goes.room opening).mono
            (fun _ => goes.reports) fun _ cut => cut) ?_
          rintro ⟨body, others⟩ rfl
          dsimp only
          split
          · exact .matched rfl (goes.pushFrom room _)
          · have unreadRest : named.unread = spaces ++ ['('] ++ body ++ ')' :: others := by
              rw [List.append_assoc, whole]
            have fits : spaces.length + 1 ≤ (spaces ++ ['(']).length := by simp
            exact .matched rfl
              ((goes.trans (goesTo_past goes.room fits unreadRest)).pushFrom room _)
      · exact .matched rfl (goes.pushFrom room _)
  · exact .declined

end Rule

/-! ### The layout -/

section

variable {log : Array Event} {corner : Position} {scanner : Scanner}

theorem finds_measure? (log : Array Event) (scanner : Scanner) :
    Finds (fun found => (found.1, found.2.logged log))
      (fun found => (∃ rest, scanner.unread = '\n' :: rest ∧ found.1 ≤ rest.length) ∧
        ∃ unit, found.2 = { scanner with unit := unit })
      (scanner.logged log).measure? scanner.measure? := by
  unfold measure?
  dsimp +instances only [unread_logged, unit_logged]
  split
  · next rest unread =>
      have fits unit : indentWidth unit rest ≤ rest.length := indentWidth_le_length unit rest
      split
      · exact .some rfl ⟨⟨rest, unread, fits _⟩, _, rfl⟩
      · split
        · exact .some rfl ⟨⟨rest, unread, fits _⟩, _, rfl⟩
        · split
          · exact .some rfl ⟨⟨rest, unread, fits _⟩, _, rfl⟩
          · exact .some rfl ⟨⟨rest, unread, Nat.zero_le _⟩, _, rfl⟩
  · exact .none

/-- A line that leaves a level is as wide as the level that it comes back to. -/
theorem width_of_closeLevels {levels left : List Nat} {closed : Nat}
    (deeper : width < levels.headD 0) (found : closeLevels width levels = .ok (closed, left)) :
    0 < closed ∧ left.headD 0 = width := by
  induction levels generalizing closed with
  | nil => cases deeper
  | cons level rest ih =>
      have notWithin : ¬level ≤ width := Nat.not_le.mpr deeper
      rw [closeLevels, if_neg notWithin] at found
      split at found
      · cases found
      · next within =>
          cases inner : closeLevels width rest with
          | error between =>
              rw [inner] at found
              cases found
          | ok result =>
              rw [inner] at found
              cases found
              refine ⟨Nat.succ_pos _, ?_⟩
              rcases Nat.lt_or_eq_of_le (Nat.not_lt.mp within) with further | same
              · exact (ih further inner).2
              · cases rest with
                | nil =>
                    cases inner
                    exact same.symm
                | cons outer more =>
                    have sameOuter : outer = width := same.symm
                    rw [closeLevels, if_pos (Nat.le_of_eq sameOuter)] at inner
                    cases inner
                    exact sameOuter

/-- A line is aligned when its indentation has been read: its position is moved over the
indentation then. -/
theorem checks_align {width : Nat} (start : scanner.position.column ≤ 1 + width)
    (room : HasRoom corner { scanner with position := ⟨scanner.position.line, 1 + width⟩ }) :
    Checks (Reports corner scanner) (logged log) (GoesTo corner scanner)
      ((scanner.logged log).align width) (scanner.align width) := by
  have roomHere : scanner.HasRoom corner :=
    ⟨room.1, Nat.le_trans (Nat.add_le_add_right start _) room.2⟩
  have goes : GoesTo corner scanner
      { scanner with position := ⟨scanner.position.line, 1 + width⟩ } :=
    (GoesTo.refl roomHere).move rfl rfl rfl (Nat.le_refl _) room
  unfold align
  dsimp +instances only [top_logged, levels_logged, position_logged, fault_logged]
  split
  · next deeper =>
      split
      · exact .error (reports_fault roomHere _)
      · next closed levels found =>
          have noted : GoesTo corner scanner
              ({ scanner with levels := levels }.note (.outdented closed width)) :=
            (GoesTo.refl roomHere).keep rfl rfl rfl rfl List.suffix_rfl
          let settled (after : Scanner) : Prop := GoesTo corner scanner after ∧
            after.top = width ∧
            HasRoom corner { after with position := ⟨after.position.line, 1 + width⟩ }
          have outdents : ∀ after, settled after → settled after.pushOutdent := by
            rintro after ⟨goes, top, room⟩
            have moved : GoesTo corner scanner
                { after with position := ⟨after.position.line, after.top + 1⟩ } := by
              rw [top, Nat.add_comm]
              exact goes.move rfl rfl rfl (Nat.le_refl _) room
            have first : corner.Within ⟨after.position.line, 1⟩ :=
              ⟨goes.room.within.line, Nat.le_trans (Nat.le_add_right 1 width) room.within.column⟩
            exact ⟨moved.push .outdent goes.forward first, top, room⟩
          have began : settled ({ scanner with levels := levels }.note (.outdented closed width)) :=
            ⟨noted, (width_of_closeLevels deeper found).2, room⟩
          rcases foldl_logged log pushOutdent (fun _ => rfl) outdents
            (List.replicate closed ()) began with ⟨ended, same⟩
          refine .ok ?_ ended.1
          rw [← same, ← note_logged]
          rfl
  · split
    · have noted := note_logged log
        { scanner with position := ⟨scanner.position.line, 1 + width⟩ } (.indented width)
      refine .ok (congrArg (fun moved : Scanner =>
        { moved.push (.indent width) scanner.position with levels := width :: scanner.levels })
        noted) ?_
      exact (goes.pushFrom roomHere (.indent width)).keep rfl rfl rfl rfl List.suffix_rfl
    · exact .ok rfl (goes.pushFrom roomHere _)

end

theorem Rule.goes_indentation : CheckedRule.Goes indentation := by
  intro log corner scanner room
  have measured := finds_measure? log scanner
  unfold indentation
  rw [measured.same]
  cases found : scanner.measure? with
  | none => exact .declined
  | some result =>
      rcases result with ⟨width, later⟩
      rcases measured.holds _ found with ⟨⟨rest, unread, fits⟩, unit, rfl⟩
      generalize nextFound :
        (({ scanner with unit := unit } : Scanner).nextLine.drop (width + 1)) = next
      have left : next.unread = rest.drop width := by
        rw [← nextFound, Scanner.drop, nextLine, unread, List.drop_succ_cons]
      have goes : GoesTo corner scanner next :=
        (GoesTo.refl room).nextLine (nextFound ▸ rfl) (nextFound ▸ rfl) (nextFound ▸ rfl)
          (nextFound ▸ rfl) unread (left ▸ List.drop_suffix width rest)
      have indented :
          HasRoom corner { next with position := ⟨next.position.line, 1 + width⟩ } := by
        have columns := room.2
        simp only [lastColumn, unread, List.length_cons] at columns
        refine ⟨goes.room.1, ?_⟩
        simp only [lastColumn, left, List.length_drop]
        omega
      dsimp only [Option.map_some]
      have moved :
          (logged log ({ scanner with unit := unit } : Scanner)).nextLine.drop (width + 1) =
            next.logged log := nextFound ▸ rfl
      rw [moved, nextFound, unread_logged, fault_logged]
      split
      · exact .error (goes.reports (reports_fault goes.room _))
      · exact .error (goes.reports (reports_fault goes.room _))
      · exact .matched rfl (goes.keep rfl rfl rfl rfl List.suffix_rfl)
      · have start : next.position.column ≤ 1 + width := nextFound ▸ Nat.le_add_right 1 width
        refine Checks.bind ((checks_align start indented).mono (fun _ => goes.reports)
          fun _ => goes.trans) fun aligned goes => ?_
        exact .matched rfl (goes.keep rfl rfl rfl rfl List.suffix_rfl)

end Offside
