import Offside.Proofs.Nesting.Run
import Offside.Proofs.Position.Text
import Offside.Proofs.TextBlock.Reading

/-!
# The loops of a scanner

The loops of a scanner are written with budgets. What such a loop really does is told by one of its
rounds, which either gives the result or tells where the next round begins, and has no budget. Where
every round but the last lowers a measure, the loop ends by itself, and a budget above the measure
makes no difference to it.
-/

namespace Offside

open Computing Scanner Text

/-- Round after round, the loop comes to a round that gives the result. -/
inductive Loops {σ ρ : Type} (round : σ → σ ⊕ ρ) : σ → ρ → Prop where
  | stop {state : σ} {result : ρ} (last : round state = .inr result) : Loops round state result
  | again {state next : σ} {result : ρ} (goes : round state = .inl next)
      (others : Loops round next result) : Loops round state result

/-- Every round but the last lowers the measure. -/
def Descends {σ ρ : Type} (round : σ → σ ⊕ ρ) (measure : σ → Nat) : Prop :=
  ∀ state next, round state = .inl next → measure next < measure state

/-- A loop with a budget above the measure ends by itself. -/
theorem Descends.loops {σ ρ : Type} {round : σ → σ ⊕ ρ} {measure : σ → Nat}
    (descends : Descends round measure) (bounded : (budget : Nat) → σ → ρ)
    (unfolds : ∀ budget state,
      bounded (budget + 1) state = (round state).elim (bounded budget) fun result => result)
    {budget : Nat} {state : σ} (enough : measure state < budget) :
    Loops round state (bounded budget state) := by
  induction budget generalizing state with
  | zero => cases enough
  | succ budget ih =>
      rw [unfolds]
      cases goes : round state with
      | inr result => exact .stop goes
      | inl next =>
          have lower := descends state next goes
          exact .again goes (ih (Nat.lt_of_lt_of_le lower (Nat.le_of_lt_succ enough)))

/-! ### Repeating a rule -/

/-- A round of repeating a rule. -/
def repeatRound (rule : Scanning Bool) (scanner : Scanner) :
    Scanner ⊕ EStateM.Result (Diagnostic TokenFault) Scanner Unit :=
  match rule scanner with
  | .ok true next => .inl next
  | .ok false next => .inr (.ok () next)
  | .error fault after => .inr (.error fault after)

theorem repeatRule_succ_eq (rule : Scanning Bool) (budget : Nat) (scanner : Scanner) :
    repeatRule rule (budget + 1) scanner =
      (repeatRound rule scanner).elim (repeatRule rule budget) fun result => result := by
  unfold repeatRound
  rw [repeatRule]
  cases ruled : rule scanner with
  | error fault after => rw [bind_of_error ruled]; rfl
  | ok matched next =>
      rw [bind_of_ok ruled]
      cases matched <;> rfl

/-- A rule that reads something whenever it matches can be repeated until it declines. -/
theorem descends_repeatRound {rule : Scanning Bool}
    (reads : ∀ scanner, Ensures rule scanner fun matched after =>
      matched = true → after.unread.length < scanner.unread.length) :
    Descends (repeatRound rule) (·.unread.length) := by
  intro scanner next goes
  unfold repeatRound at goes
  split at goes
  · next read =>
      cases goes
      exact reads scanner true _ read rfl
  · cases goes
  · cases goes

theorem loops_repeatRule {rule : Scanning Bool} {budget : Nat} {scanner : Scanner}
    (reads : ∀ scanner, Ensures rule scanner fun matched after =>
      matched = true → after.unread.length < scanner.unread.length)
    (enough : scanner.unread.length < budget) :
    Loops (repeatRound rule) scanner (repeatRule rule budget scanner) :=
  (descends_repeatRound reads).loops (repeatRule rule) (repeatRule_succ_eq rule) enough

/-! ### Entries of an attribute list -/

/-- A round of reading the entries of an attribute list: the list is at its end, or one more entry
is read. -/
def entryRound (state : Scanner × List Char) :
    (Scanner × List Char) ⊕ Except (Diagnostic TokenFault) Scanner :=
  if state.2 = [] then
    .inr (.ok state.1)
  else
    match attributeEntry state.1 state.2 with
    | .ok next => .inl next
    | .error fault => .inr (.error fault)

theorem attributeEntries_succ_eq (budget : Nat) (state : Scanner × List Char) :
    attributeEntries state.1 (budget + 1) state.2 =
      (entryRound state).elim (fun next => attributeEntries next.1 budget next.2)
        fun result => result := by
  rcases state with ⟨scanner, text⟩
  unfold entryRound
  cases text with
  | nil => rfl
  | cons first rest =>
      change (attributeEntry scanner (first :: rest) >>= fun found =>
        attributeEntries found.1 budget found.2) = _
      rw [if_neg (List.cons_ne_nil _ _)]
      cases attributeEntry scanner (first :: rest) <;> rfl

/-- An entry takes at least one character of its list. -/
theorem length_attributeEntry_lt {scanner : Scanner} {text : List Char} (someText : text ≠ []) :
    Gives (attributeEntry scanner text) fun found => found.2.length < text.length := by
  unfold attributeEntry
  extract_lets entry
  have skip_le (cursor : AttributeCursor) : cursor.skip.rest.length ≤ cursor.rest.length :=
    (List.dropWhile_suffix _).length_le
  have skipped : entry.rest.length ≤ text.length := skip_le _
  split
  · exact .ok (List.length_pos_iff.mpr someText)
  split
  next nameQuote name behind read =>
  extract_lets invalid behindName behindCheck addEntry
  have finished (cursor : AttributeCursor) (next : Scanner)
      (shorter : cursor.rest.length < text.length) :
      Gives (pure (next, cursor.skip.rest) : Except (Diagnostic TokenFault) _)
        fun found => found.2.length < text.length :=
    .ok (Nat.lt_of_le_of_lt (skip_le cursor) shorter)
  have added (someName : name ≠ []) :
      Gives (behindCheck ()) fun found => found.2.length < text.length := by
    have shorterName : behindName.rest.length < text.length := by
      have taken := @AttributeCursor.length_readName_lt entry
      rw [read] at taken
      have shorter : behind.rest.length < entry.rest.length := taken someName
      exact Nat.lt_of_le_of_lt (skip_le behind) (Nat.lt_of_lt_of_le shorter skipped)
    dsimp only [behindCheck]
    split
    case' h_1 rest equals =>
      have fewer : (readValue (AttributeCursor.skip
          ⟨rest, behindName.position.right 1⟩)).2.2.rest.length < text.length := by
        have valued := (@AttributeCursor.passes_readValue (AttributeCursor.skip
          ⟨rest, behindName.position.right 1⟩)).length_le
        have opened : rest.length < behindName.rest.length := by simp [equals]
        have further := skip_le ⟨rest, behindName.position.right 1⟩
        dsimp only at further
        omega
    case' h_2 => have fewer := shorterName
    all_goals
      split
      · split
        · split
          · exact .throw_bind
          · exact finished _ _ fewer
        · exact finished _ _ fewer
      · exact finished _ _ fewer
  split
  · exact .throw_bind
  · next someName =>
      dsimp only [addEntry]
      split
      · exact .throw_bind
      · exact added (mt List.isEmpty_iff.mpr someName)

theorem descends_entryRound : Descends entryRound (·.2.length) := by
  rintro ⟨scanner, text⟩ next goes
  unfold entryRound at goes
  split at goes
  · cases goes
  · next someText =>
      split at goes
      · next read =>
          cases goes
          exact length_attributeEntry_lt someText _ read
      · cases goes

/-- The list of an attribute list is read to its end, or up to a fault. -/
theorem loops_attributeEntries {budget : Nat} (scanner : Scanner) {text : List Char}
    (enough : text.length < budget) :
    Loops entryRound (scanner, text) (attributeEntries scanner budget text) :=
  descends_entryRound.loops (fun budget state => attributeEntries state.1 budget state.2)
    attributeEntries_succ_eq enough

/-! ### Markers in a run of text -/

/-- A run of text that has come to some place: what is still to be split, and the text that waits
for the next token, with its escapes. -/
structure TextRun where
  scanner : Scanner
  value : List Char
  held : List Char
  escaped : Nat

/-- A round of splitting a run of text at the markers in it. -/
def textRound (inner : Scanning Unit) (html : Bool) (run : TextRun) :
    TextRun ⊕ EStateM.Result (Diagnostic TokenFault) Scanner Unit :=
  let scanner := run.scanner
  match findMarker scanner.interpolated scanner.markersAllowed run.value with
  | none => .inr (.ok () (scanner.pushText html (run.held ++ run.value) run.escaped))
  | some (before, .escapedTag, rest) =>
      .inl ⟨scanner, rest, run.held ++ before ++ ['#', '['], run.escaped + 1⟩
  | some (before, .escapedCode sigil, rest) =>
      .inl ⟨scanner, rest, run.held ++ before ++ [sigil, '\x7b'], run.escaped + 1⟩
  | some (before, .tag, rest) =>
      match interpolated inner rest (scanner.pushText html (run.held ++ before) run.escaped) with
      | .ok behind next => .inl ⟨next, behind, [], 0⟩
      | .error fault after => .inr (.error fault after)
  | some (before, .code sigil, rest) =>
      match (scanner.pushText html (run.held ++ before) run.escaped).pushCode sigil rest with
      | .ok (next, behind) => .inl ⟨next, behind, [], 0⟩
      | .error fault => .inr (.error fault scanner)
  | some (before, .close, rest) =>
      let value := run.held ++ before
      let shown := if value.isEmpty then scanner else scanner.pushText html value run.escaped
      .inr (.ok () { shown with ended := true, unread := rest ++ scanner.unread })

theorem addText_succ_eq (inner : Scanning Unit) (html : Bool) (budget : Nat) (run : TextRun) :
    addText inner html (budget + 1) run.value run.held run.escaped run.scanner =
      (textRound inner html run).elim
        (fun next => addText inner html budget next.value next.held next.escaped next.scanner)
        fun result => result := by
  rcases run with ⟨scanner, value, held, escaped⟩
  rw [addText, get_bind_eq]
  unfold textRound
  dsimp only
  cases findMarker scanner.interpolated scanner.markersAllowed value with
  | none => rfl
  | some parts =>
      rcases parts with ⟨before, marker, rest⟩
      cases marker with
      | escapedTag | escapedCode | close => rfl
      | tag =>
          dsimp only
          change (interpolated inner rest >>= fun behind => addText inner html budget behind [] 0)
            (scanner.pushText html (held ++ before) escaped) = _
          cases read : interpolated inner rest (scanner.pushText html (held ++ before) escaped) with
          | ok behind next => exact bind_of_ok read
          | error fault after => exact bind_of_error read
      | code sigil =>
          dsimp only
          cases (scanner.pushText html (held ++ before) escaped).pushCode sigil rest with
          | ok found => rfl
          | error fault => rfl

/-- A computation that reads interpolated tags never leaves more text than there was. -/
def Scanning.Shortens (inner : Scanning Unit) : Prop :=
  ∀ scanner, Ensures inner scanner fun _ after => after.unread.length ≤ scanner.unread.length

section

variable {inner : Scanning Unit}

theorem length_lt_of_findMarker {interpolated allowed : Bool} {value front rest : List Char}
    {marker : Marker} (found : findMarker interpolated allowed value = some (front, marker, rest)) :
    rest.length < value.length := by
  have written : 0 < marker.written.length := by cases marker <;> exact Nat.succ_pos _
  have whole := congrArg List.length (eq_append_of_findMarker found)
  rw [List.length_append, List.length_append] at whole
  omega

theorem length_interpolated_le (shortens : inner.Shortens) (body : List Char) (scanner : Scanner) :
    Ensures (interpolated inner body) scanner fun rest _ => rest.length ≤ body.length := by
  intro rest after done
  unfold interpolated at done
  extract_lets opened at done
  split at done
  · cases done
  · next child read =>
      cases done
      exact shortens _ () child read

theorem length_pushCode_le (scanner : Scanner) (sigil : Char) (text : List Char) :
    Gives (scanner.pushCode sigil text) fun found => found.2.length ≤ text.length :=
  (gives_pushCode (holdsText_place scanner false) scanner sigil text).mono
    fun _ found => found.2.length_le

/-- Each round splits off a marker at least. -/
theorem descends_textRound (shortens : inner.Shortens) (html : Bool) :
    Descends (textRound inner html) (·.value.length) := by
  rintro ⟨scanner, value, held, escaped⟩ next goes
  unfold textRound at goes
  dsimp only at goes ⊢
  cases found : findMarker scanner.interpolated scanner.markersAllowed value with
  | none =>
      rw [found] at goes
      cases goes
  | some parts =>
      rcases parts with ⟨before, marker, rest⟩
      have shorter := length_lt_of_findMarker found
      rw [found] at goes
      cases marker with
      | escapedTag | escapedCode =>
          cases goes
          exact shorter
      | tag =>
          dsimp only at goes
          split at goes
          · next behind later read =>
              cases goes
              have fewer := length_interpolated_le shortens _ _ behind later read
              exact Nat.lt_of_le_of_lt fewer shorter
          · cases goes
      | code sigil =>
          dsimp only at goes
          split at goes
          · next later behind read =>
              cases goes
              have fewer := length_pushCode_le _ _ _ _ read
              exact Nat.lt_of_le_of_lt fewer shorter
          · cases goes
      | close => cases goes

theorem loops_addText (shortens : inner.Shortens) (html : Bool) {budget : Nat} (run : TextRun)
    (enough : run.value.length < budget) :
    Loops (textRound inner html) run
      (addText inner html budget run.value run.held run.escaped run.scanner) :=
  (descends_textRound shortens html).loops
    (fun budget run => addText inner html budget run.value run.held run.escaped run.scanner)
    (addText_succ_eq inner html) enough

end

/-! ### Looking at a text block again -/

/-- A scan of a text block with a width. Where a line of the block is indented less, there is
another look at the block with the width of that line. -/
def blockScan (inner : Scanning Unit) (width : Nat) (measured : Scanner) :
    (Scanner × Option Nat) ⊕ EStateM.Result (Diagnostic TokenFault) Scanner Bool :=
  if width ≤ measured.top then
    .inr (.ok false measured)
  else
    match takeBlock (measured.unit.getD .space) measured.top width
        (lines (measured.unread.drop 1)) with
    | .shallower found => .inl (measured, some found)
    | .taken block rest => .inr (takeRows inner width block rest measured)

/-- A look at a text block: blank lines are passed over, and the block is scanned with the width
that was requested or, on the first look, with that of its first line. -/
def blockRound (blank : Scanning Bool) (inner : Scanning Unit) (state : Scanner × Option Nat) :
    (Scanner × Option Nat) ⊕ EStateM.Result (Diagnostic TokenFault) Scanner Bool :=
  match repeatRule blank (state.1.unread.length + 1) state.1 with
  | .error fault after => .inr (.error fault after)
  | .ok _ skipped =>
      match skipped.measure?, state.2 with
      | none, none => .inr (.ok false skipped)
      | none, some requested => blockScan inner requested skipped
      | some (width, measured), requested => blockScan inner (requested.getD width) measured

theorem textBlock_eq_elim (blank : Scanning Bool) (inner : Scanning Unit) (budget : Nat)
    (state : Scanner × Option Nat) :
    Rule.textBlock blank inner (budget + 1) state.2 state.1 =
      (blockRound blank inner state).elim
        (fun next => Rule.textBlock blank inner budget next.2 next.1) fun result => result := by
  rcases state with ⟨scanner, requested⟩
  unfold blockRound
  rw [Rule.textBlock, get_bind_eq]
  dsimp only
  cases skips : repeatRule blank (scanner.unread.length + 1) scanner with
  | error fault after => rw [bind_of_error skips]; rfl
  | ok _ skipped =>
      rw [bind_of_ok skips, modifyGet_bind_eq]
      dsimp only
      rcases skipped.measure? with _ | ⟨scanned, measured⟩ <;> rcases requested with _ | width
      case none.none => rfl
      -- The width is that which was requested, or else that which was measured.
      all_goals
        dsimp only [blockScan, Option.getD_none, Option.getD_some]
        refine get_bind_eq.trans ?_
        split
        · rfl
        · generalize takeBlock _ _ _ _ = scan
          cases scan <;> rfl

section

variable {unit : IndentUnit} {level width found : Nat} {rows : List (List Char)}

/-- The width with which a scan stops lies between the level and the width of the scan. -/
theorem bounds_of_takeBlock (stops : takeBlock unit level width rows = .shallower found) :
    level < found ∧ found < width := by
  induction rows with
  | nil => cases stops
  | cons row rows ih =>
      have later {line : BlockLine}
          (stops : (takeBlock unit level width rows).cons line = .shallower found) :
          level < found ∧ found < width := by
        cases scanned : takeBlock unit level width rows with
        | taken => simp [scanned, BlockScan.cons] at stops
        | shallower narrower =>
            rw [scanned] at stops
            cases stops
            exact ih scanned
      unfold takeBlock at stops
      extract_lets own at stops
      split at stops
      · exact later stops
      · next narrow =>
          split at stops
          · exact later stops
          · split at stops
            · next deeper =>
                injection stops with same
                subst same
                exact ⟨deeper, Nat.lt_of_not_le narrow⟩
            · cases stops

end

section

variable {inner : Scanning Unit}

theorem narrows_blockScan {width : Nat} {measured : Scanner} {next : Scanner × Option Nat}
    (goes : blockScan inner width measured = .inl next) :
    ∃ found, next = (measured, some found) ∧ measured.top < found ∧ found < width := by
  unfold blockScan at goes
  split at goes
  · cases goes
  · split at goes
    · next found stops =>
        cases goes
        exact ⟨found, rfl, bounds_of_takeBlock stops⟩
    · cases goes

/-- Another look at a text block has a smaller width than the one before, of which it is known that
the line of that width is there, and this width is still deeper than the level. -/
theorem narrows_blockRound {state next : Scanner × Option Nat}
    (goes : blockRound (SimpleRule.run Rule.blankLine) inner state = .inl next) :
    next.1.top = state.1.top ∧ ∃ width, next.2 = some width ∧ state.1.top < width ∧
      width < state.2.getD (state.1.unread.length + 1) := by
  rcases state with ⟨scanner, requested⟩
  unfold blockRound at goes
  dsimp only at goes ⊢
  split at goes
  · cases goes
  · next skipped skips =>
      have extended : Extends scanner skipped := (ensures_repeatBlank _ _ _ skips).1
      have sameTop : skipped.top = scanner.top := by rw [top, top, extended.levels]
      rcases measures : skipped.measure? with _ | ⟨width, measured⟩
      · rw [measures] at goes
        cases requested with
        | none => cases goes
        | some requested =>
            rcases narrows_blockScan goes with ⟨found, rfl, deeper, narrower⟩
            exact ⟨sameTop, found, rfl, sameTop ▸ deeper, narrower⟩
      · rw [measures] at goes
        rcases narrows_blockScan goes with ⟨found, rfl, deeper, narrower⟩
        rcases exists_of_measure? measures with ⟨rest, unit, _, unread, rfl, rfl⟩
        refine ⟨sameTop, found, rfl, sameTop ▸ deeper, ?_⟩
        cases requested with
        | some requested => exact narrower
        | none =>
            have fits := indentWidth_le_length unit rest
            have length := extended.unread.length_le
            rw [unread, List.length_cons] at length
            rw [Option.getD_none] at narrower ⊢
            omega

theorem descends_blockRound (inner : Scanning Unit) :
    Descends (blockRound (SimpleRule.run Rule.blankLine) inner)
      fun state => state.2.getD (state.1.unread.length + 1) := by
  intro state next goes
  rcases narrows_blockRound goes with ⟨_, width, requested, _, narrower⟩
  dsimp only
  rwa [requested]

theorem loops_textBlock (inner : Scanning Unit) {budget : Nat} {scanner : Scanner}
    (enough : scanner.unread.length + 1 < budget) :
    Loops (blockRound (SimpleRule.run Rule.blankLine) inner) (scanner, none)
      (Rule.textBlock (SimpleRule.run Rule.blankLine) inner budget none scanner) :=
  (descends_blockRound inner).loops
    (fun budget state =>
      Rule.textBlock (SimpleRule.run Rule.blankLine) inner budget state.2 state.1)
    (textBlock_eq_elim _ inner) enough

end

end Offside
