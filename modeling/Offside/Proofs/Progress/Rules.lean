import Offside.Proofs.Progress.Loop

/-!
# Every step reads something

A step of a run that matches reads something or is the last one, and it asks for the runs inside
interpolated tags only where their text is shorter than its own. Both are shown in one go: a rule is
compared with the same rule above another computation for interpolated tags, where the two agree on
shorter texts.
-/

namespace Offside

open Computing Scanner Text

/-- Two computations do the same, and what they give has a property. -/
structure Scanning.Proceeds {α : Type} (action other : Scanning α) (scanner : Scanner)
    (holds : α → Scanner → Prop) : Prop where
  same : other scanner = action scanner
  ensures : Ensures action scanner holds

open Scanning

namespace Scanning.Proceeds

variable {α β : Type} {action other : Scanning α} {next otherNext : α → Scanning β}
  {scanner : Scanner} {holds holdsMore : α → Scanner → Prop} {holdsNext : β → Scanner → Prop}

theorem of_ensures (ensures : Ensures action scanner holds) :
    Proceeds action action scanner holds :=
  ⟨rfl, ensures⟩

theorem pure {value : α} (given : holds value scanner) :
    Proceeds (pure value) (pure value) scanner holds :=
  .of_ensures (.pure given)

theorem throw {fault : Diagnostic TokenFault} :
    Proceeds (throw fault) (throw fault) scanner holds :=
  .of_ensures .throw

theorem mono (proceeds : Proceeds action other scanner holds)
    (values : ∀ value after, holds value after → holdsMore value after) :
    Proceeds action other scanner holdsMore :=
  ⟨proceeds.same, proceeds.ensures.mono values⟩

theorem bind (first : Proceeds action other scanner holds)
    (second : ∀ value middle, holds value middle →
      Proceeds (next value) (otherNext value) middle holdsNext) :
    Proceeds (action >>= next) (other >>= otherNext) scanner holdsNext := by
  refine ⟨?_, first.ensures.bind fun value middle held => (second value middle held).ensures⟩
  cases done : action scanner with
  | error fault after => rw [bind_of_error done, bind_of_error (first.same.trans done)]
  | ok value middle =>
      rw [bind_of_ok done, bind_of_ok (first.same.trans done)]
      exact (second value middle (first.ensures value middle done)).same

theorem get_bind {next otherNext : Scanner → Scanning β}
    (each : Proceeds (next scanner) (otherNext scanner) scanner holdsNext) :
    Proceeds (get >>= next) (get >>= otherNext) scanner holdsNext :=
  ⟨each.same, each.ensures⟩

theorem set_bind {next otherNext : Unit → Scanning β} {changed : Scanner}
    (each : Proceeds (next ()) (otherNext ()) changed holdsNext) :
    Proceeds (set changed >>= next) (set changed >>= otherNext) scanner holdsNext :=
  ⟨each.same, each.ensures⟩

theorem modify_bind {next otherNext : Unit → Scanning β} {change : Scanner → Scanner}
    (each : Proceeds (next ()) (otherNext ()) (change scanner) holdsNext) :
    Proceeds (modify change >>= next) (modify change >>= otherNext) scanner holdsNext :=
  ⟨each.same, each.ensures⟩

theorem modifyGet_bind {γ : Type} {change : Scanner → γ × Scanner} {next otherNext : γ → Scanning β}
    (each : Proceeds (next (change scanner).1) (otherNext (change scanner).1) (change scanner).2
      holdsNext) :
    Proceeds (modifyGet change >>= next) (modifyGet change >>= otherNext) scanner holdsNext :=
  ⟨each.same, each.ensures⟩

end Scanning.Proceeds

/-- Below a length, two computations read interpolated tags in the same way, and never leave more
text than there was. -/
def NestsBelow (limit : Nat) (inner other : Scanning Unit) : Prop :=
  ∀ nested : Scanner, nested.unread.length < limit →
    Proceeds inner other nested fun _ after => after.unread.length ≤ nested.unread.length

/-- Up to a length of the text, two computations do the same and leave no more text than there
was. -/
def KeepsLength {α : Type} (limit : Nat) (action other : Scanning α) : Prop :=
  ∀ scanner : Scanner, scanner.unread.length ≤ limit →
    Proceeds action other scanner fun _ after => after.unread.length ≤ scanner.unread.length

/-- A rule reads on, and it reads something if it matches. -/
structure Scanner.Lowers (before : Scanner) (matched : Bool) (after : Scanner) : Prop where
  notLonger : after.unread.length ≤ before.unread.length
  shorter : matched = true → after.unread.length < before.unread.length

/-- A step reads on, and if it matches it reads something or is the last one. -/
structure Scanner.Progresses (before : Scanner) (matched : Bool) (after : Scanner) : Prop where
  notLonger : after.unread.length ≤ before.unread.length
  reads : matched = true → Reads before after

section

variable {scanner after : Scanner} {matched : Bool}

theorem Scanner.Lowers.of_length_lt (shorter : after.unread.length < scanner.unread.length) :
    Lowers scanner matched after :=
  ⟨Nat.le_of_lt shorter, fun _ => shorter⟩

theorem Scanner.Lowers.declined : Lowers scanner false scanner :=
  ⟨Nat.le_refl _, by simp⟩

theorem Scanner.Lowers.progresses (lowers : Lowers scanner matched after) :
    Progresses scanner matched after :=
  ⟨lowers.notLonger, fun isMatch => .inr (lowers.shorter isMatch)⟩

theorem Scanner.Progresses.of_ruled (ruled : Ruled scanner matched after) :
    Progresses scanner matched after :=
  ⟨ruled.1.unread.length_le, ruled.2⟩

end

variable {inner other : Scanning Unit} {limit : Nat} {scanner : Scanner}

/-! ### Runs of text -/

section

variable (nests : NestsBelow limit inner other)

include nests

theorem proceeds_interpolated {body : List Char} (fits : body.length < limit) :
    Proceeds (interpolated inner body) (interpolated other body) scanner fun rest after =>
      rest.length ≤ body.length ∧ after.unread = scanner.unread := by
  let opened := (scanner.right 2).push .startInterpolation scanner.position
  have visits := nests (opened.nest body) fits
  refine ⟨?_, ?_⟩
  · unfold interpolated
    dsimp only
    rw [visits.same]
  · intro rest after done
    unfold interpolated at done
    dsimp only at done
    split at done
    · cases done
    · next child read =>
        cases done
        exact ⟨visits.ensures () child read, rfl⟩

/-- What is put back behind the bracket that closes a tag is shorter than the run of text. -/
theorem proceeds_addText {html : Bool} {budget escaped : Nat} {value held : List Char}
    (fits : value.length ≤ limit) :
    Proceeds (addText inner html budget value held escaped)
      (addText other html budget value held escaped) scanner fun _ after =>
        after.unread.length ≤ scanner.unread.length + (value.length - 1) := by
  induction budget generalizing value held escaped scanner with
  | zero => exact .pure (Nat.le_add_right _ _)
  | succ budget ih =>
      have further {rest held : List Char} {escaped : Nat} {middle : Scanner}
          (shorter : rest.length < value.length) (same : middle.unread = scanner.unread) :
          Proceeds (addText inner html budget rest held escaped)
            (addText other html budget rest held escaped) middle fun _ after =>
              after.unread.length ≤ scanner.unread.length + (value.length - 1) := by
        refine (ih (by omega)).mono fun _ after left => ?_
        rw [same] at left
        omega
      refine .get_bind ?_
      cases found : findMarker scanner.interpolated scanner.markersAllowed value with
      | none => exact .of_ensures (.set (Nat.le_add_right _ _))
      | some parts =>
          rcases parts with ⟨before, marker, rest⟩
          have shorter := length_lt_of_findMarker found
          cases marker with
          | escapedTag | escapedCode => exact further shorter rfl
          | tag =>
              refine .set_bind ((proceeds_interpolated nests (by omega)).bind ?_)
              rintro behind middle ⟨fewer, same⟩
              exact further (Nat.lt_of_le_of_lt fewer shorter) same
          | code sigil =>
              dsimp only
              split
              · exact .throw
              · next next behind coded =>
                  have inserts := gives_pushCode (holdsText_place scanner html)
                    (scanner.pushText html (held ++ before) escaped) sigil rest _ coded
                  refine .set_bind (further ?_ inserts.1.unread)
                  exact Nat.lt_of_le_of_lt inserts.2.length_le shorter
          | close =>
              refine .of_ensures (.set ?_)
              rw [List.length_append]
              omega

theorem proceeds_addRun {html : Bool} {value : List Char} (fits : value.length ≤ limit) :
    Proceeds (addRun inner html value) (addRun other html value) scanner fun _ after =>
      after.unread.length ≤ scanner.unread.length + (value.length - 1) :=
  proceeds_addText nests fits

/-- The line that comes next is read as a run of text. -/
theorem proceeds_lineRun {html : Bool} {value : List Char} (position : Position)
    (fits : scanner.unread.length ≤ limit) (suffix : value <:+ firstLine scanner.unread)
    (someText : firstLine scanner.unread ≠ []) :
    Proceeds (do
        addRun inner html value
        return true)
      (do
        addRun other html value
        return true)
      { scanner.drop (firstLine scanner.unread).length with position := position }
      (Lowers scanner) := by
  have lineLength : (firstLine scanner.unread).length ≤ scanner.unread.length :=
    (List.takeWhile_prefix _).length_le
  have valueLength := suffix.length_le
  have positive := List.length_pos_iff.mpr someText
  refine (proceeds_addRun nests (by omega)).bind fun _ after left => .pure (.of_length_lt ?_)
  have dropped : (scanner.drop (firstLine scanner.unread).length).unread.length =
      scanner.unread.length - (firstLine scanner.unread).length := List.length_drop
  dsimp only at left
  omega

theorem proceeds_text (fits : scanner.unread.length ≤ limit) :
    Proceeds (Rule.text inner) (Rule.text other) scanner (Lowers scanner) := by
  refine .get_bind ?_
  dsimp only
  have runs {value : List Char} (skipped : Nat) (suffix : value <:+ firstLine scanner.unread)
      (someText : firstLine scanner.unread ≠ []) :
      Proceeds (do
          set ((scanner.drop (firstLine scanner.unread).length).right skipped)
          addRun inner false value
          return true)
        (do
          set ((scanner.drop (firstLine scanner.unread).length).right skipped)
          addRun other false value
          return true)
        scanner (Lowers scanner) :=
    .set_bind (proceeds_lineRun nests _ fits suffix someText)
  split
  · next line => exact runs _ (line ▸ List.suffix_append ['|', ' '] _) (by simp [line])
  · next line => exact runs _ (line ▸ List.suffix_append ['|'] _) (by simp [line])
  · next line => exact runs _ (line ▸ List.suffix_rfl) (by simp [line])
  · next line => exact runs _ (line ▸ List.suffix_append [' '] _) (by simp [line])
  · exact .pure .declined

theorem proceeds_html (fits : scanner.unread.length ≤ limit) :
    Proceeds (Rule.html inner) (Rule.html other) scanner (Lowers scanner) := by
  refine .get_bind ?_
  split
  · next rest unread =>
      have someText : firstLine scanner.unread ≠ [] := by simp [unread, firstLine]
      exact .set_bind (proceeds_lineRun nests scanner.position fits List.suffix_rfl someText)
  · exact .pure .declined

/-! ### Text blocks -/

/-- How much text is in the lines of a block. -/
def BlockLine.amount : List BlockLine → Nat
  | [] => 0
  | line :: rest => line.text.length + amount rest

omit nests in
/-- The text of a block and what is left behind it are not more than there was. -/
theorem amount_of_takeBlock {unit : IndentUnit} {level width : Nat} {rows rest : List (List Char)}
    {block : List BlockLine} (taken : takeBlock unit level width rows = .taken block rest) :
    BlockLine.amount block + (unlines rest).length ≤ (unlines rows).length := by
  induction rows generalizing block with
  | nil =>
      cases taken
      exact Nat.le_refl _
  | cons row rows ih =>
      have more {line : BlockLine} (fromRow : line.text <:+ row)
          (taken : (takeBlock unit level width rows).cons line = .taken block rest) :
          BlockLine.amount block + (unlines rest).length ≤ (unlines (row :: rows)).length := by
        cases scanned : takeBlock unit level width rows with
        | shallower => simp [scanned, BlockScan.cons] at taken
        | taken others left =>
            simp only [scanned, BlockScan.cons, BlockScan.taken.injEq] at taken
            rcases taken with ⟨rfl, rfl⟩
            have fewer := ih scanned
            have shorter := fromRow.length_le
            simp only [BlockLine.amount, unlines_cons, List.length_cons, List.length_append]
            omega
      unfold takeBlock at taken
      extract_lets found at taken
      split at taken
      · exact more (List.drop_suffix width row) taken
      · split at taken
        · exact more (List.drop_suffix width row) taken
        · split at taken
          · cases taken
          · cases taken
            simp [BlockLine.amount]

omit nests in
theorem amount_le_of_sublist {kept block : List BlockLine} (sublist : kept.Sublist block) :
    BlockLine.amount kept ≤ BlockLine.amount block := by
  induction sublist with
  | slnil => exact Nat.le_refl _
  | cons line _ ih => exact Nat.le_add_left_of_le ih
  | cons_cons line _ ih => exact Nat.add_le_add_left ih _

omit nests in
theorem amount_dropEmptyEnd_le (block : List BlockLine) :
    BlockLine.amount (dropEmptyEnd block) ≤ BlockLine.amount block := by
  have reversed := (List.dropWhile_sublist (·.text.isEmpty) (l := block.reverse)).reverse
  rw [List.reverse_reverse] at reversed
  exact amount_le_of_sublist reversed

theorem proceeds_addLines {width : Nat} {first : Bool} {block : List BlockLine}
    (fits : BlockLine.amount block ≤ limit) :
    Proceeds (addLines inner width first block) (addLines other width first block) scanner
      fun _ after => after.unread.length ≤ scanner.unread.length + BlockLine.amount block := by
  induction block generalizing scanner first with
  | nil => exact .pure (Nat.le_add_right _ _)
  | cons line rest ih =>
      rw [BlockLine.amount] at fits ⊢
      refine .get_bind ?_
      extract_lets start inside
      refine .set_bind ?_
      have same : (if first then inside else inside.push .newline start.position).unread =
          scanner.unread := by
        dsimp only [inside]
        split <;> split <;> rfl
      refine (proceeds_addRun nests (by omega)).bind fun _ middle left => ?_
      refine (ih (by omega)).mono fun _ after leftBehind => ?_
      rw [same] at left
      omega

theorem proceeds_takenBlock (fits : scanner.unread.length ≤ limit)
    (atLine : ['\n'] <+: scanner.unread) {unit : IndentUnit} {level width : Nat}
    {block : List BlockLine} {rest : List (List Char)}
    (taken : takeBlock unit level width (lines (scanner.unread.drop 1)) = .taken block rest) :
    Proceeds (do
        addLines inner width true (if rest.isEmpty then dropEmptyEnd block else block)
        modify (·.pushHere .endTextBlock)
        return true)
      (do
        addLines other width true (if rest.isEmpty then dropEmptyEnd block else block)
        modify (·.pushHere .endTextBlock)
        return true)
      { scanner.pushHere .startTextBlock with unread := unlines rest }
      fun (_ : Bool) after => after.unread.length ≤ scanner.unread.length := by
  have whole : unlines (lines (scanner.unread.drop 1)) = scanner.unread := by
    rcases atLine with ⟨others, unread⟩
    rw [← unread, unlines_lines]
    rfl
  have amount := amount_of_takeBlock taken
  have dropped := amount_dropEmptyEnd_le block
  rw [whole] at amount
  generalize kept : (if rest.isEmpty then dropEmptyEnd block else block) = lines
  have fewer : BlockLine.amount lines ≤ BlockLine.amount block := by
    rw [← kept]
    split
    · exact dropped
    · exact Nat.le_refl _
  refine (proceeds_addLines nests (by omega)).bind fun _ after left => ?_
  refine .modify_bind (.pure ?_)
  dsimp only [pushHere, push] at left ⊢
  omega

/-- A text block that is not there is read on, too, over blank lines. -/
theorem proceeds_textBlock {budget : Nat} {requested : Option Nat}
    (fits : scanner.unread.length ≤ limit) (atLine : requested ≠ none → ['\n'] <+: scanner.unread) :
    Proceeds (Rule.textBlock (SimpleRule.run Rule.blankLine) inner budget requested)
      (Rule.textBlock (SimpleRule.run Rule.blankLine) other budget requested) scanner
      fun _ after => after.unread.length ≤ scanner.unread.length := by
  induction budget generalizing scanner requested with
  | zero => exact .pure (Nat.le_refl _)
  | succ budget ih =>
      refine .get_bind ((Proceeds.of_ensures (ensures_repeatBlank _)).bind ?_)
      rintro _ middle ⟨skipped, staysAtLine⟩
      have notLonger := skipped.unread.length_le
      refine .modifyGet_bind ?_
      cases measured : middle.measure? with
      | none =>
          -- No width was requested, as the text does not begin with a newline.
          have notRequested : requested = none := by
            by_contra isRequested
            exact measure?_ne_none (staysAtLine (atLine isRequested)) measured
          subst notRequested
          exact .pure notLonger
      | some found =>
          rcases found with ⟨width, later⟩
          rcases extends_of_measure? measured with ⟨atLineLater, withUnit⟩
          have laterLength := withUnit.unread.length_le
          dsimp only
          split
          · exact .pure (by omega)
          · refine .get_bind ?_
            split
            · exact .pure (by omega)
            · split
              · exact (ih (by omega) fun _ => atLineLater).mono fun _ after left => by omega
              · next block rest taken =>
                  exact .set_bind ((proceeds_takenBlock nests (by omega) atLineLater taken).mono
                    fun _ after left => by omega)

theorem keepsLength_textBlockStep :
    KeepsLength limit (textBlockStep [] inner) (textBlockStep [] other) :=
  fun _ fits => .get_bind (proceeds_textBlock nests fits fun requested => absurd rfl requested)

end

/-! ### Rules that go on with other rules -/

section

variable {block otherBlock attributes path : Scanning Bool}

theorem proceeds_comment (keeps : KeepsLength limit block otherBlock)
    (fits : scanner.unread.length ≤ limit) :
    Proceeds (Rule.comment block) (Rule.comment otherBlock) scanner (Lowers scanner) := by
  refine .get_bind ?_
  split
  · next rest unread =>
      extract_lets line
      split
      next value buffered _ =>
      have isRest : IsRest (scanner.unread.drop (2 + line.length)) scanner.unread :=
        .drop (by simp [unread]) (by omega)
      have shorter := isRest.length_lt
      refine .set_bind ((keeps _ (Nat.le_trans (Nat.le_of_lt shorter) fits)).bind ?_)
      exact fun _ after left => .pure (.of_length_lt (Nat.lt_of_le_of_lt left shorter))
  · exact .pure .declined

theorem proceeds_dot (keeps : KeepsLength limit block otherBlock)
    (fits : scanner.unread.length ≤ limit) :
    Proceeds (Rule.dot block) (Rule.dot otherBlock) scanner (Lowers scanner) := by
  refine .get_bind ?_
  split
  · next rest unread =>
      split
      · exact .pure .declined
      · next token next found =>
          have takes := Rule.takes_endOfLine found rfl (unread ▸ .cons List.suffix_rfl)
          have shorter := takes.unread.length_lt
          refine .set_bind ((keeps _ (Nat.le_trans (Nat.le_of_lt shorter) fits)).bind ?_)
          exact fun _ after left => .pure (.of_length_lt (Nat.lt_of_le_of_lt left shorter))
  · exact .pure .declined

/-- A filter goes on with attributes, and outside an include with a text block. -/
theorem proceeds_filter {blockIfAny otherIfAny : Option (Scanning Bool)}
    (keepsAttributes : KeepsLength limit attributes attributes)
    (keeps : Option.Rel (KeepsLength limit) blockIfAny otherIfAny)
    (fits : scanner.unread.length ≤ limit) :
    Proceeds (Rule.filter attributes blockIfAny) (Rule.filter attributes otherIfAny) scanner
      (Lowers scanner) := by
  refine .get_bind ?_
  split
  · next rest unread =>
      split
      · exact .pure .declined
      · next name length _ =>
          have isRest : IsRest (scanner.unread.drop (1 + length)) scanner.unread :=
            .drop (by simp [unread]) (by omega)
          have shorter := isRest.length_lt
          have fitsBehind := Nat.le_trans (Nat.le_of_lt shorter) fits
          refine .set_bind ((keepsAttributes _ fitsBehind).bind fun _ middle left => ?_)
          have shorterMiddle := Nat.lt_of_le_of_lt left shorter
          cases keeps with
          | none => exact .pure (.of_length_lt shorterMiddle)
          | some keeps =>
              have fitsBlock := Nat.le_trans (Nat.le_of_lt shorterMiddle) fits
              refine .modify_bind
                ((keeps { middle with markersAllowed := false } fitsBlock).bind ?_)
              intro _ after left
              exact .pure (.of_length_lt (Nat.lt_of_le_of_lt left shorterMiddle))
  · exact .pure .declined

theorem keepsLength_of_ruled {rule : Scanning Bool}
    (ruled : ∀ scanner, Ensures rule scanner (Ruled scanner)) : KeepsLength limit rule rule :=
  fun scanner _ => .of_ensures ((ruled scanner).mono fun _ _ result => result.1.unread.length_le)

theorem keepsLength_repeatRule {rule : Scanning Bool} (keeps : KeepsLength limit rule rule)
    (budget : Nat) : KeepsLength limit (repeatRule rule budget) (repeatRule rule budget) := by
  induction budget with
  | zero => exact fun _ _ => .pure (Nat.le_refl _)
  | succ budget ih =>
      refine fun scanner fits => (keeps scanner fits).bind fun matched middle left => ?_
      cases matched with
      | false => exact .pure left
      | true =>
          exact (ih middle (Nat.le_trans left fits)).mono fun _ _ leftBehind =>
            Nat.le_trans leftBehind left

theorem proceeds_inheritance (keeps : KeepsLength limit path path)
    (fits : scanner.unread.length ≤ limit) :
    Proceeds (Rule.inheritance path) (Rule.inheritance path) scanner (Lowers scanner) := by
  unfold Rule.inheritance
  extract_lets announce
  have announces {keyword : String} {stops : List Char} (someKeyword : keyword ≠ "")
      (opens : Rule.opensWith keyword stops scanner.unread = true) :
      Proceeds (announce keyword) (announce keyword) scanner (Lowers scanner) := by
    have takes : Takes scanner (scanner.emit .inheritance keyword.length) :=
      Rule.takes_keyword someKeyword opens rfl
    have shorter := takes.unread.length_lt
    refine .modify_bind ((keeps _ (Nat.le_trans (Nat.le_of_lt shorter) fits)).bind ?_)
    intro matched after left
    cases matched with
    | false => exact .get_bind .throw
    | true => exact .pure (.of_length_lt (Nat.lt_of_le_of_lt left shorter))
  refine .get_bind ?_
  split
  · next opens => exact announces (by decide) opens
  · split
    · next opens => exact announces (by decide) opens
    · split
      · exact .throw
      · exact .pure .declined

theorem proceeds_inclusion {filter : Scanning Bool} (keepsFilter : KeepsLength limit filter filter)
    (keeps : KeepsLength limit path path) (fits : scanner.unread.length ≤ limit) :
    Proceeds (Rule.inclusion filter path) (Rule.inclusion filter path) scanner
      (Lowers scanner) := by
  refine .get_bind ?_
  split
  · next opens =>
      have takes : Takes scanner (scanner.emit .inclusion "include".length) :=
        Rule.takes_keyword (by decide) opens rfl
      have shorter := takes.unread.length_lt
      refine .set_bind ((keepsLength_repeatRule keepsFilter _ _
        (Nat.le_trans (Nat.le_of_lt shorter) fits)).bind fun _ middle left => ?_)
      have shorterMiddle := Nat.lt_of_le_of_lt left shorter
      refine (keeps _ (Nat.le_trans (Nat.le_of_lt shorterMiddle) fits)).bind ?_
      intro matched after leftBehind
      cases matched with
      | true => exact .pure (.of_length_lt (Nat.lt_of_le_of_lt leftBehind shorterMiddle))
      | false =>
          refine .get_bind ?_
          split
          all_goals exact .throw
  · split
    · exact .throw
    · exact .pure .declined

end

/-! ### Steps -/

theorem unread_align (scanner : Scanner) (width : Nat) :
    Gives (scanner.align width) fun after => after.unread = scanner.unread := by
  unfold Scanner.align
  extract_lets line
  split
  · split
    · rintro after ⟨⟩
    · next closed levels _ =>
        exact .ok (leaves_foldl leaves_pushOutdent (List.replicate closed ())
          ({ scanner with levels := levels }.note (.outdented closed width))).unread
  · split
    · exact .ok rfl
    · exact .ok rfl

theorem lowers_indentation :
    Ensures (CheckedRule.run Rule.indentation) scanner (Lowers scanner) := by
  refine ensures_of_gives .declined ?_
  unfold Rule.indentation
  split
  · rintro found ⟨⟩ next ⟨⟩
  · next width measured found =>
      rcases extends_of_measure? found with ⟨⟨others, unread⟩, extended⟩
      extract_lets next
      have someText : measured.unread ≠ [] := by simp [← unread]
      have isRest : IsRest next.unread measured.unread := .drop someText (Nat.succ_pos width)
      have shorter : next.unread.length < scanner.unread.length :=
        Nat.lt_of_lt_of_le isRest.length_lt extended.unread.length_le
      split
      · rintro found ⟨⟩
      · rintro found ⟨⟩
      · refine .ok ?_
        rintro after ⟨⟩
        exact .of_length_lt shorter
      · refine (unread_align next width).bind fun aligned same => .ok ?_
        rintro after ⟨⟩
        exact .of_length_lt (same ▸ shorter)

theorem progresses_endOfInput :
    Ensures (CheckedRule.run Rule.endOfInput) scanner (Progresses scanner) := by
  refine ensures_of_gives ⟨Nat.le_refl _, by simp⟩ ?_
  unfold Rule.endOfInput
  split
  · split
    · rintro found ⟨⟩
    · extract_lets closed
      have leavesOne : ∀ left : Scanner, Scanner.Leaves 1 left (left.pushHere .outdent) :=
        fun left => ⟨rfl, rfl, rfl, rfl, kinds_push left .outdent left.position⟩
      have leaves : Scanner.Leaves scanner.levels.length scanner closed :=
        leaves_foldl leavesOne scanner.levels scanner
      refine .ok ?_
      rintro after ⟨⟩
      exact ⟨Nat.le_of_eq (congrArg List.length leaves.unread), fun _ => .inl rfl⟩
  · rintro found ⟨⟩ next ⟨⟩

/-- Every step reads something or is the last one, and asks for runs inside interpolated tags only
where they have less text. -/
theorem proceeds_rule (nests : NestsBelow limit inner other) (fits : scanner.unread.length ≤ limit)
    {step : Step} (listed : step ∈ Step.order) :
    Proceeds (step.rule [] inner) (step.rule [] other) scanner (Progresses scanner) := by
  have ruled {rule : Scanning Bool} (ruled : Ensures rule scanner (Ruled scanner)) :
      Proceeds rule rule scanner (Progresses scanner) :=
    .of_ensures (ruled.mono fun _ _ => .of_ruled)
  have lowers {rule otherRule : Scanning Bool}
      (proceeds : Proceeds rule otherRule scanner (Lowers scanner)) :
      Proceeds rule otherRule scanner (Progresses scanner) :=
    proceeds.mono fun _ _ => Lowers.progresses
  have keepsPath : KeepsLength limit (pathStep []) (pathStep []) :=
    keepsLength_of_ruled fun _ => Rule.ensures_path
  have keepsAttributes : KeepsLength limit (attributesStep []) (attributesStep []) :=
    keepsLength_of_ruled fun _ => ensures_attributes
  have keepsFilter : KeepsLength limit (includeFilterStep []) (includeFilterStep []) :=
    fun _ fits => (proceeds_filter keepsAttributes .none fits).mono fun _ _ => (·.notLonger)
  have keepsBlock : KeepsLength limit (textBlockStep [] inner) (textBlockStep [] other) :=
    keepsLength_textBlockStep nests
  cases step with
  | blank => exact ruled (Rule.ensures_blankLine.mono fun _ _ => And.left)
  | endOfInput => exact .of_ensures progresses_endOfInput
  | endInterpolation => exact ruled ensures_endInterpolation
  | yieldSlot => exact ruled (ensures_simple fun _ => Rule.takes_keywordLine (by decide) rfl)
  | doctype => exact ruled (ensures_simple fun _ => Rule.takes_doctype)
  | default => exact ruled (ensures_checked fun _ => Rule.takes_default)
  | inheritance => exact lowers (proceeds_inheritance keepsPath fits)
  | append => exact ruled (ensures_simple fun _ => Rule.takes_namedBlock (by decide))
  | prepend => exact ruled (ensures_simple fun _ => Rule.takes_namedBlock (by decide))
  | block => exact ruled (ensures_simple fun _ => Rule.takes_namedBlock (by decide))
  | mixinBlock => exact ruled (ensures_simple fun _ => Rule.takes_keywordLine (by decide) rfl)
  | inclusion => exact lowers (proceeds_inclusion keepsFilter keepsPath fits)
  | mixin => exact ruled (ensures_simple fun _ => Rule.takes_mixin)
  | call => exact ruled (ensures_checked fun _ => Rule.takes_call)
  | interpolation => exact ruled (ensures_checked fun _ => Rule.takes_interpolation)
  | tag => exact ruled (ensures_simple fun _ => Rule.takes_tag)
  | filter => exact lowers (proceeds_filter keepsAttributes (.some keepsBlock) fits)
  | id => exact ruled (ensures_checked fun _ => Rule.takes_id)
  | dot => exact lowers (proceeds_dot keepsBlock fits)
  | className => exact ruled (ensures_checked fun _ => Rule.takes_className)
  | attributes => exact ruled ensures_attributes
  | indentation => exact lowers (.of_ensures lowers_indentation)
  | text => exact lowers (proceeds_text nests fits)
  | html => exact lowers (proceeds_html nests fits)
  | comment => exact lowers (proceeds_comment keepsBlock fits)
  | slash => exact ruled (ensures_simple fun _ => Rule.takes_slash)
  | colon => exact ruled (ensures_simple fun _ => Rule.takes_colon)
  | includeFilter | path | textBlock => simp [Step.order] at listed

theorem proceeds_firstMatch (nests : NestsBelow limit inner other)
    (fits : scanner.unread.length ≤ limit) {steps : List Step} (listed : steps ⊆ Step.order) :
    Proceeds (firstMatch [] inner steps) (firstMatch [] other steps) scanner
      fun _ after => Progresses scanner true after := by
  induction steps generalizing scanner with
  | nil => exact .get_bind .throw
  | cons step rest ih =>
      rw [List.cons_subset] at listed
      refine (proceeds_rule nests fits listed.1).bind fun matched middle progresses => ?_
      cases matched with
      | true => exact .pure progresses
      | false =>
          have notLonger := progresses.notLonger
          refine (ih (Nat.le_trans notLonger fits) listed.2).mono fun _ after further => ?_
          refine ⟨Nat.le_trans further.notLonger notLonger, fun _ => ?_⟩
          exact (further.reads rfl).imp_right fun shorter => Nat.lt_of_lt_of_le shorter notLonger

end Offside
