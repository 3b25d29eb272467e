import Offside.Proofs.Nesting.Lines
import Offside.Proofs.Provenance.Brackets

/-!
# Runs of text and text blocks

A run of text is on one line. An interpolated tag in it is read by a scanner of its own, which stays
on that line. Each line of a text block is a run, so that a block takes as many lines as it has, and
no more characters than they have.
-/

namespace Offside

open Computing Scanner Text

/-! ### Computations on a scanner -/

/-- From a scanner a computation goes to a later one, or it finds a fault on the way; from the
scanner with notes in front the other computation does the same. -/
structure Moves {α : Type} (log : Array Event) (corner : Position) (changed action : Scanning α)
    (scanner : Scanner) : Prop where
  agree : Agree (Scanner.logged log) changed action scanner
  goes :
    match action scanner with
    | .ok _ after => GoesTo corner scanner after
    | .error fault _ => Reports corner scanner fault

namespace Moves

variable {α β : Type} {log : Array Event} {corner : Position} {scanner : Scanner}
  {changed action : Scanning α} {changedNext next : α → Scanning β}

theorem pure (room : scanner.HasRoom corner) (value : α) :
    Moves log corner (pure value) (pure value) scanner :=
  ⟨rfl, .refl room⟩

theorem throw {fault : Diagnostic TokenFault} (reports : Reports corner scanner fault) :
    Moves log corner (MonadExcept.throw fault : Scanning α) (MonadExcept.throw fault) scanner :=
  ⟨rfl, reports⟩

theorem of_ok (value : α) {after : Scanner} (done : action scanner = .ok value after)
    (changedDone : changed (scanner.logged log) = .ok value (after.logged log))
    (goes : GoesTo corner scanner after) : Moves log corner changed action scanner := by
  refine ⟨?_, ?_⟩
  · rw [Agree, changedDone, done]
    rfl
  · rw [done]
    exact goes

/-- What a computation does from a later scanner, told from an earlier one. -/
theorem trans {later : Scanner} (first : GoesTo corner scanner later) {result : Scanning α}
    (moves : Moves log corner changed action later)
    (same : result scanner = action later) {resultChanged : Scanning α}
    (sameChanged : resultChanged (scanner.logged log) = changed (later.logged log)) :
    Moves log corner resultChanged result scanner := by
  refine ⟨?_, ?_⟩
  · unfold Agree
    rw [sameChanged, same]
    exact moves.agree
  · have goes := moves.goes
    rw [same]
    cases acted : action later with
    | ok value after =>
        rw [acted] at goes
        exact first.trans goes
    | error fault after =>
        rw [acted] at goes
        exact first.reports goes

theorem bind (first : Moves log corner changed action scanner)
    (second : ∀ value middle, action scanner = .ok value middle → GoesTo corner scanner middle →
      Moves log corner (changedNext value) (next value) middle) :
    Moves log corner (changed >>= changedNext) (action >>= next) scanner := by
  have goes := first.goes
  have agree := first.agree
  cases acted : action scanner with
  | error fault after =>
      rw [acted] at goes
      refine ⟨agree.bind fun value middle done => ?_, ?_⟩
      · rw [acted] at done
        cases done
      · rw [bind_of_error acted]
        exact goes
  | ok value middle =>
      rw [acted] at goes
      refine (second value middle acted goes).trans goes (bind_of_ok acted) ?_
      apply bind_of_ok
      rw [agree, acted]
      rfl

/-- A look at the scanner. -/
theorem get_bind {changedNext next : Scanner → Scanning β}
    (each : Moves log corner (changedNext (scanner.logged log)) (next scanner) scanner) :
    Moves log corner (get >>= changedNext) (get >>= next) scanner :=
  ⟨each.agree, each.goes⟩

theorem set {moved later : Scanner} (same : moved = later.logged log)
    (goes : GoesTo corner scanner later) :
    Moves log corner (MonadStateOf.set moved) (MonadStateOf.set later) scanner :=
  ⟨congrArg (EStateM.Result.ok ()) same, goes⟩

/-- A new scanner. -/
theorem set_bind {changedNext next : Unit → Scanning β} {moved later : Scanner}
    (same : moved = later.logged log) (goes : GoesTo corner scanner later)
    (each : Moves log corner (changedNext ()) (next ()) later) :
    Moves log corner (MonadStateOf.set moved >>= changedNext) (MonadStateOf.set later >>= next)
      scanner :=
  (set same goes).bind fun _ _ done _ => by cases done; exact each

/-- A change of the scanner. -/
theorem modify_bind {changedNext next : Unit → Scanning β} {change : Scanner → Scanner}
    (same : change (scanner.logged log) = (change scanner).logged log)
    (goes : GoesTo corner scanner (change scanner))
    (each : Moves log corner (changedNext ()) (next ()) (change scanner)) :
    Moves log corner (modify change >>= changedNext) (modify change >>= next) scanner :=
  each.trans goes rfl (congrArg (changedNext ()) same)

theorem modifyGet_bind {change : Scanner → α × Scanner} (value : α) {later : Scanner}
    (changed : change (scanner.logged log) = (value, later.logged log))
    (unchanged : change scanner = (value, later)) (goes : GoesTo corner scanner later)
    (each : Moves log corner (changedNext value) (next value) later) :
    Moves log corner (modifyGet change >>= changedNext) (modifyGet change >>= next) scanner := by
  refine each.trans goes ?_ ?_
  · exact congrArg (fun result => next result.1 result.2) unchanged
  · exact congrArg (fun result => changedNext result.1 result.2) changed

theorem mono {more : Position} (moves : Moves log corner changed action scanner)
    (further : more.Within corner) : Moves log more changed action scanner := by
  refine ⟨moves.agree, ?_⟩
  have goes := moves.goes
  cases acted : action scanner with
  | ok value after =>
      rw [acted] at goes
      exact goes.mono further
  | error fault after =>
      rw [acted] at goes
      exact goes.mono further

end Moves

/-- From any scanner a computation goes to a later one, or it finds a fault on the way, whatever was
noted before. -/
def Goes {α : Type} (action : Scanning α) : Prop :=
  ∀ (log : Array Event) (corner : Position) (scanner : Scanner), scanner.HasRoom corner →
    Moves log corner action action scanner

theorem SimpleRule.Goes.run {rule : SimpleRule} (goes : rule.Goes) :
    Offside.Goes (SimpleRule.run rule) := by
  intro log corner scanner room
  have found := goes log corner scanner room
  cases matched : rule scanner with
  | none =>
      refine .of_ok false ?_ ?_ (.refl room)
      · simp only [SimpleRule.run, matched]
      · simp only [SimpleRule.run, found.same, matched, Option.map_none]
  | some next =>
      refine .of_ok true ?_ ?_ (found.holds next matched)
      · simp only [SimpleRule.run, matched]
      · simp only [SimpleRule.run, found.same, matched, Option.map_some]

theorem CheckedRule.Goes.run {rule : CheckedRule} (goes : rule.Goes) :
    Offside.Goes (CheckedRule.run rule) := by
  intro log corner scanner room
  have found := goes log corner scanner room
  have same := found.same
  have holds := found.holds
  cases matched : rule scanner with
  | error fault =>
      rw [matched] at same holds
      refine ⟨?_, ?_⟩
      · simp only [Agree, CheckedRule.run, same, matched]
        rfl
      · simpa only [CheckedRule.run, matched] using holds
  | ok result =>
      rw [matched] at same holds
      cases result with
      | none =>
          refine .of_ok false ?_ ?_ (.refl room)
          · simp only [CheckedRule.run, matched]
          · simp only [CheckedRule.run, same, Except.map, Option.map_none]
      | some next =>
          refine .of_ok true ?_ ?_ (holds next rfl)
          · simp only [CheckedRule.run, matched]
          · simp only [CheckedRule.run, same, Except.map, Option.map_some]

/-! ### Markers -/

/-- A marker as it is written. -/
def Marker.written : Marker → List Char
  | escapedTag => ['\\', '#', '[']
  | escapedCode sigil => ['\\', sigil, '\x7b']
  | tag => ['#', '[']
  | code sigil => [sigil, '\x7b']
  | close => [']']

section

variable {text rest : List Char} {marker : Marker}

theorem eq_append_of_markerAt? (found : markerAt? text = some (marker, rest)) :
    text = marker.written ++ rest := by
  unfold markerAt? at found
  split at found
  all_goals
    cases found
    try rfl

theorem eq_append_of_findMarker {interpolated allowed : Bool} {front : List Char}
    (found : findMarker interpolated allowed text = some (front, marker, rest)) :
    text = front ++ (marker.written ++ rest) := by
  induction text generalizing front with
  | nil => cases found
  | cons first others ih =>
      unfold findMarker at found
      split at found
      · next closes =>
          cases found
          have bracket : first = ']' := by simpa using (Bool.and_eq_true_iff.mp closes).2
          exact congrArg (· :: _) bracket
      · split at found
        · next opens =>
            cases found
            split at opens
            · exact eq_append_of_markerAt? opens
            · cases opens
        · rcases Option.map_eq_some_iff.mp found with ⟨⟨front, behind⟩, foundLater, ⟨⟩⟩
          exact congrArg (first :: ·) (ih foundLater)

end

/-! ### Runs of text -/

section

variable {log : Array Event} {corner : Position} {scanner : Scanner} {inner : Scanning Unit}

/-- What is read of a text that was put back may count twice. -/
theorem Scanner.HasRoom.further {front text : List Char} {count moved : Nat}
    (room : ((scanner.right count).putBack (front ++ text)).HasRoom corner)
    (fits : moved ≤ count + 2 * front.length) :
    ((scanner.right moved).putBack text).HasRoom corner := by
  refine room.read rfl ?_ ?_
  · simp only [putBack, List.append_assoc]
    exact List.suffix_append front _
  · simp only [lastColumn, putBack, right, Position.right, List.length_append]
    omega

theorem goesTo_pushText {value text : List Char} {escaped : Nat} (html : Bool)
    (whole : scanner.HasRoom corner)
    (room : ((scanner.right (value.length + escaped)).putBack text).HasRoom corner) :
    GoesTo corner scanner (scanner.pushText html value escaped) := by
  have moved : GoesTo corner scanner (scanner.right (value.length + escaped)) :=
    (GoesTo.refl whole).move rfl rfl rfl (Nat.le_refl _) room.of_putBack
  exact moved.pushFrom whole _

/-- The expression of a variable stays on the line of the text. -/
theorem checks_pushCode (log : Array Event) {sigil : Char} {text : List Char}
    (room : (scanner.putBack (sigil :: '\x7b' :: text)).HasRoom corner) (oneLine : '\n' ∉ text) :
    Checks (Reports corner scanner) (fun found => (found.1.logged log, found.2))
      (fun found =>
        GoesTo corner scanner found.1 ∧ (found.1.putBack found.2).HasRoom corner ∧ '\n' ∉ found.2)
      ((scanner.logged log).pushCode sigil text) (scanner.pushCode sigil text) := by
  unfold pushCode
  split
  · exact .error (reports_fault room.of_putBack _)
  · exact .error (reports_fault room.of_putBack _)
  · next body rest closed =>
      have parts := Bracket.eq_append_of_find_eq_closed closed
      subst parts
      simp only [List.mem_append, List.mem_cons, not_or] at oneLine
      rcases oneLine with ⟨inBody, -, inRest⟩
      have straight : (((scanner.right 2).past body).right 1).position =
          scanner.position.right (2 + body.length + 1) := by
        show ((scanner.position.right 2).past body).right 1 = _
        rw [Position.past_eq_right inBody]
        simp only [Position.right, Nat.add_assoc]
      have behind : ((((scanner.right 2).past body).right 1).putBack rest).HasRoom corner := by
        have split : sigil :: '\x7b' :: (body ++ '\x7d' :: rest) =
            (sigil :: '\x7b' :: (body ++ ['\x7d'])) ++ rest := by simp
        have here : ((scanner.right 0).putBack
            ((sigil :: '\x7b' :: (body ++ ['\x7d'])) ++ rest)).HasRoom corner := split ▸ room
        have further : ((scanner.right (2 + body.length + 1)).putBack rest).HasRoom corner := by
          refine here.further ?_
          simp only [List.length_cons, List.length_append, List.length_nil]
          omega
        refine further.read (congrArg Position.line straight) List.suffix_rfl (Nat.le_of_eq ?_)
        exact congrArg (·.column + 2 * (rest ++ scanner.unread).length) straight
      have moved : GoesTo corner scanner (((scanner.right 2).past body).right 1) := by
        refine (GoesTo.refl room.of_putBack).move rfl rfl rfl ?_ behind.of_putBack
        rw [straight]
        exact Nat.le_refl _
      exact .ok rfl ⟨moved.pushFrom room.of_putBack _, behind, inRest⟩

/-- The inside of an interpolated tag stays on its line, and leaves a column for the bracket. -/
def Scanner.tagCorner (corner : Position) (scanner : Scanner) : Position :=
  ⟨scanner.position.line, corner.column - (1 + 2 * scanner.unread.length)⟩

/-- Behind an interpolated tag the scanner is on the line where the tag was opened. -/
theorem Scanner.GoesTo.endInterpolation {opened child : Scanner} {body : List Char}
    (began : GoesTo corner scanner opened)
    (column : 1 + 2 * opened.unread.length ≤ corner.column)
    (inside : GoesTo (opened.tagCorner corner) (opened.nest body) child) :
    let back := { opened with
      position := ⟨opened.position.line, child.position.column⟩
      found := child.found ++ opened.found
      events := child.events }
    GoesTo corner scanner ((back.right 1).push .endInterpolation back.position) ∧
      ((back.right 1).putBack child.unread).HasRoom corner ∧ '\n' ∉ child.unread := by
  intro back
  have within : corner.Within (opened.tagCorner corner) :=
    ⟨began.room.within.line, Nat.sub_le _ _⟩
  rcases inside.room with ⟨lines, columns⟩
  have forward : opened.position.line ≤ child.position.line := inside.forward
  simp only [lastLine, lastColumn, tagCorner] at lines columns
  have oneLine : '\n' ∉ child.unread := List.count_eq_zero.mp (by omega)
  have room : ((back.right 1).putBack child.unread).HasRoom corner := by
    refine ⟨?_, ?_⟩
    · have line := began.room.1
      simp only [lastLine, putBack, right, Position.right, back, List.count_append,
        List.count_eq_zero.mpr oneLine] at line ⊢
      omega
    · simp only [lastColumn, putBack, right, Position.right, back, List.length_append]
      omega
  have backRoom : back.HasRoom corner := by
    refine room.of_putBack.read rfl List.suffix_rfl ?_
    exact Nat.add_le_add_right (Nat.le_succ _) _
  have goes : GoesTo corner opened back := by
    rcases inside.found with ⟨added, found, stand⟩
    rw [show (opened.nest body).found = [] from rfl, List.append_nil] at found
    refine ⟨rfl, rfl, Nat.le_refl _, backRoom, added, congrArg (· ++ opened.found) found, ?_⟩
    intro token isAdded
    have stands := stand token isAdded
    exact ⟨stands.file, stands.forward, stands.start.mono within, stands.stop.mono within⟩
  have moved : GoesTo corner opened (back.right 1) :=
    goes.move rfl rfl rfl (Nat.le_refl _) room.of_putBack
  exact ⟨began.trans (moved.push _ (Nat.le_refl _) backRoom.within), room, oneLine⟩

/-- The scanner for an interpolated tag stays on the line of the text. -/
theorem moves_interpolated (log : Array Event) (goes : Goes inner) {body : List Char}
    (room : (scanner.putBack ('#' :: '[' :: body)).HasRoom corner) (oneLine : '\n' ∉ body) :
    Moves log corner (interpolated inner body) (interpolated inner body) scanner ∧
      Ensures (interpolated inner body) scanner fun rest after =>
        (after.putBack rest).HasRoom corner ∧ '\n' ∉ rest := by
  have here : ((scanner.right 0).putBack (['#', '['] ++ body)).HasRoom corner := room
  have opening : ((scanner.right 2).putBack body).HasRoom corner := here.further (by decide)
  have moved : GoesTo corner scanner (scanner.right 2) :=
    (GoesTo.refl room.of_putBack).move rfl rfl rfl (Nat.le_refl _) opening.of_putBack
  have began := moved.pushFrom room.of_putBack .startInterpolation
  have logged : ((scanner.logged log).right 2).push .startInterpolation
      (scanner.logged log).position =
        ((scanner.right 2).push .startInterpolation scanner.position).logged log := rfl
  have changed : ∀ opened : Scanner,
      (opened.logged log).nest body = (opened.nest body).logged log :=
    fun _ => rfl
  have columns : scanner.position.column + 2 * (body.length + scanner.unread.length) + 4 ≤
      corner.column := by
    have enough := room.2
    simp only [lastColumn, putBack, List.length_append, List.length_cons] at enough
    omega
  have column : 1 + 2 * scanner.unread.length ≤ corner.column := by omega
  have roomInside : (((scanner.right 2).push .startInterpolation scanner.position).nest
      body).HasRoom (((scanner.right 2).push .startInterpolation scanner.position).tagCorner
        corner) := by
    refine ⟨?_, ?_⟩
    · simp only [lastLine, nest, tagCorner, push, List.count_eq_zero.mpr oneLine]
      exact Nat.le_refl _
    · simp only [lastColumn, nest, tagCorner, push, right, Position.right]
      omega
  change 1 + 2 * ((scanner.right 2).push .startInterpolation scanner.position).unread.length ≤
    corner.column at column
  generalize openedEq : (scanner.right 2).push .startInterpolation scanner.position = opened
    at began logged roomInside column
  have read := goes log _ (opened.nest body) roomInside
  have agree := read.agree
  have went := read.goes
  have within : corner.Within (opened.tagCorner corner) :=
    ⟨began.room.within.line, Nat.sub_le _ _⟩
  unfold Agree at agree
  cases acted : inner (opened.nest body) with
  | error fault child =>
      rw [acted] at went agree
      refine ⟨⟨?_, ?_⟩, ?_⟩
      · simp only [Agree, interpolated, logged, changed, agree, openedEq, acted]
        rfl
      · simp only [interpolated, openedEq, acted]
        exact began.reports ⟨went.file, went.source, went.forward, went.room.mono within⟩
      · intro rest after done
        simp only [interpolated, openedEq, acted] at done
        cases done
  | ok value child =>
      rw [acted] at went agree
      have closed := began.endInterpolation column went
      refine ⟨⟨?_, ?_⟩, ?_⟩
      · simp only [Agree, interpolated, logged, changed, agree, openedEq, acted]
        rfl
      · simp only [interpolated, openedEq, acted]
        exact closed.1
      · intro rest after done
        simp only [interpolated, openedEq, acted] at done
        cases done
        exact closed.2

/-- A run of text that is on one line. What is held, with its escapes, is not counted yet. -/
theorem moves_addText (goes : Goes inner) {html : Bool} {budget : Nat} {value held : List Char}
    {escaped : Nat} (whole : scanner.HasRoom corner)
    (room : ((scanner.right (held.length + escaped)).putBack value).HasRoom corner)
    (oneLine : '\n' ∉ value) :
    Moves log corner (addText inner html budget value held escaped)
      (addText inner html budget value held escaped) scanner := by
  induction budget generalizing scanner value held escaped with
  | zero => exact .pure whole ()
  | succ budget ih =>
      refine .get_bind ?_
      rw [interpolated_logged, markersAllowed_logged]
      cases found : findMarker scanner.interpolated scanner.markersAllowed value with
      | none =>
          have behind : ((scanner.right ((held ++ value).length + escaped)).putBack []).HasRoom
              corner := by
            rw [← List.append_nil value] at room
            refine room.further ?_
            rw [List.length_append]
            omega
          exact .set rfl (goesTo_pushText html whole behind)
      | some parts =>
          rcases parts with ⟨front, marker, rest⟩
          have cut := eq_append_of_findMarker found
          subst cut
          simp only [List.mem_append, not_or] at oneLine
          rcases oneLine with ⟨-, -, oneLineRest⟩
          have atMarker : ((scanner.right ((held ++ front).length + escaped)).putBack
              (marker.written ++ rest)).HasRoom corner := by
            refine room.further ?_
            rw [List.length_append]
            omega
          have pushed := goesTo_pushText html whole atMarker
          -- Behind a tag or a variable the rest of the run begins anew.
          have more {middle : Scanner} {others : List Char}
              (left : (middle.putBack others).HasRoom corner) (oneLine : '\n' ∉ others) :
              Moves log corner (addText inner html budget others [] 0)
                (addText inner html budget others [] 0) middle :=
            ih left.of_putBack left oneLine
          cases marker with
          | escapedTag | escapedCode =>
              refine ih whole (atMarker.further ?_) oneLineRest
              simp only [Marker.written, List.length_append, List.length_cons, List.length_nil]
              omega
          | tag =>
              have shown : ((scanner.pushText html (held ++ front) escaped).putBack
                  ('#' :: '[' :: rest)).HasRoom corner := atMarker
              rcases moves_interpolated log goes shown oneLineRest with ⟨reads, leaves⟩
              refine .set_bind rfl pushed (reads.bind ?_)
              intro behind middle done _
              have left := leaves behind middle done
              exact more left.1 left.2
          | code sigil =>
              have shown : ((scanner.pushText html (held ++ front) escaped).putBack
                  (sigil :: '\x7b' :: rest)).HasRoom corner := atMarker
              have codes := checks_pushCode log shown oneLineRest
              have same : (scanner.logged log).pushText html (held ++ front) escaped =
                  (scanner.pushText html (held ++ front) escaped).logged log := rfl
              dsimp only
              rw [same, codes.same]
              have found := codes.holds
              cases coded : (scanner.pushText html (held ++ front) escaped).pushCode sigil rest with
              | error fault =>
                  rw [coded] at found
                  exact .throw (pushed.reports found)
              | ok result =>
                  rw [coded] at found
                  exact .set_bind rfl (pushed.trans found.1) (more found.2.1 found.2.2)
          | close =>
              have keeps {shown : Scanner} (goesOn : GoesTo corner scanner shown)
                  (left : (shown.putBack rest).HasRoom corner)
                  (unread : shown.unread = scanner.unread) :
                  GoesTo corner scanner
                    { shown with ended := true, unread := rest ++ scanner.unread } := by
                rw [← unread]
                exact goesOn.move rfl rfl rfl (Nat.le_refl _) left
              have behind (moved : Nat) (fits : moved ≤ (held ++ front).length + escaped) :
                  ((scanner.right moved).putBack rest).HasRoom corner :=
                atMarker.further (Nat.le_add_right_of_le fits)
              refine .set (by split <;> rfl) ?_
              split
              · exact keeps (.refl whole) (behind 0 (Nat.zero_le _)) rfl
              · exact keeps pushed (behind _ (Nat.le_refl _)) rfl

theorem moves_addRun (goes : Goes inner) {html : Bool} {value : List Char}
    (room : (scanner.putBack value).HasRoom corner) (oneLine : '\n' ∉ value) :
    Moves log corner (addRun inner html value) (addRun inner html value) scanner :=
  moves_addText goes room.of_putBack room oneLine

/-! ### Text blocks -/

/-- How many characters a line of a block takes: its newline, its indentation and its text. -/
def BlockLine.size (width : Nat) (line : BlockLine) : Nat :=
  1 + (if line.indented then width else 0) + line.text.length

/-- How many characters the lines of a block take. -/
def BlockLine.sizeAll (width : Nat) : List BlockLine → Nat
  | [] => 0
  | line :: rest => line.size width + sizeAll width rest

theorem BlockLine.sizeAll_append {width : Nat} {front behind : List BlockLine} :
    sizeAll width (front ++ behind) = sizeAll width front + sizeAll width behind := by
  induction front with
  | nil => exact (Nat.zero_add _).symm
  | cons line front ih => rw [List.cons_append, sizeAll, sizeAll, ih, Nat.add_assoc]

/-- Each line of a block is a line of the template. -/
theorem moves_addLines (goes : Goes inner) {width : Nat} {first : Bool} {block : List BlockLine}
    (lines : scanner.lastLine + block.length ≤ corner.line)
    (columns : scanner.lastColumn + 2 * BlockLine.sizeAll width block ≤ corner.column)
    (oneLine : ∀ line ∈ block, '\n' ∉ line.text) :
    Moves log corner (addLines inner width first block) (addLines inner width first block)
      scanner := by
  induction block generalizing scanner first with
  | nil => exact .pure ⟨lines, columns⟩ ()
  | cons line rest ih =>
      rw [List.forall_mem_cons] at oneLine
      rw [List.length_cons] at lines
      rw [BlockLine.sizeAll] at columns
      unfold addLines
      refine .get_bind ?_
      extract_lets startChanged insideChanged start inside
      generalize BlockLine.sizeAll width rest = others at columns ih
      -- The bounds of this line alone leave room for the others.
      let here : Position := ⟨corner.line - rest.length, corner.column - 2 * others⟩
      have further : corner.Within here := ⟨Nat.sub_le _ _, Nat.sub_le _ _⟩
      have position : inside.position =
          ⟨scanner.position.line + 1, 1 + if line.indented then width else 0⟩ := by
        dsimp only [inside, start]
        split
        · rfl
        · rfl
      have unread : inside.unread = scanner.unread := by
        dsimp only [inside, start]
        split
        · rfl
        · rfl
      have room : (inside.putBack line.text).HasRoom here := by
        simp only [BlockLine.size, lastColumn] at columns
        unfold lastLine at lines
        refine ⟨?_, ?_⟩
        · simp only [lastLine, putBack, position, unread, List.count_append,
            List.count_eq_zero.mpr oneLine.1, here]
          omega
        · simp only [lastColumn, putBack, position, unread, List.length_append, here]
          omega
      have roomHere : scanner.HasRoom here := by
        refine ⟨?_, ?_⟩
        · simp only [here]
          omega
        · simp only [here]
          omega
      have next : GoesTo here scanner inside := by
        refine (GoesTo.refl roomHere).move ?_ ?_ ?_ (position ▸ Nat.le_succ _) room.of_putBack
        all_goals
          dsimp only [inside, start]
          split
          · rfl
          · rfl
      have marked : GoesTo here scanner
          (if first then inside else inside.push .newline start.position) := by
        have lineStart : here.Within start.position := by
          rcases room.within with ⟨line, column⟩
          rw [show (inside.putBack _).position = _ from position] at line column
          exact ⟨line, Nat.le_of_add_right_le column⟩
        split
        · exact next
        · exact next.push _ (Nat.le_succ _) lineStart
      have roomMarked : ((if first then inside else inside.push .newline start.position).putBack
          line.text).HasRoom here := by
        split
        · exact room
        · exact room
      have run : Moves log here (addRun inner false line.text) (addRun inner false line.text)
          (if first then inside else inside.push .newline start.position) :=
        moves_addRun goes roomMarked oneLine.1
      refine .set_bind ?_ (marked.mono further) ?_
      · have sameInside : insideChanged = inside.logged log := by
          dsimp only [insideChanged, inside]
          split <;> rfl
        rw [sameInside]
        cases first <;> rfl
      · refine (run.mono further).bind ?_
        intro _ middle done _
        have went := run.goes
        rw [done] at went
        rcases went.room with ⟨line, column⟩
        simp only [here] at line column
        exact ih (by omega) (by omega) oneLine.2

theorem length_le_count_unlines (rows : List (List Char)) :
    rows.length ≤ (unlines rows).count '\n' := by
  induction rows with
  | nil => exact Nat.le_refl _
  | cons row rows ih =>
      have split : unlines (row :: rows) = '\n' :: (row ++ unlines rows) := by simp [unlines]
      rw [split, List.count_cons_self, List.count_append, List.length_cons]
      omega

/-- A block takes the first lines, and no more characters than they have. -/
theorem exists_append_of_takeBlock {unit : IndentUnit} {level width : Nat}
    {rows rest : List (List Char)} {block : List BlockLine}
    (taken : takeBlock unit level width rows = .taken block rest) :
    ∃ front, rows = front ++ rest ∧ front.length = block.length ∧
      BlockLine.sizeAll width block ≤ (unlines front).length := by
  induction rows generalizing block with
  | nil =>
      cases taken
      exact ⟨[], rfl, rfl, Nat.le_refl _⟩
  | cons row rows ih =>
      have more : ∀ line : BlockLine, line.size width ≤ 1 + row.length →
          (takeBlock unit level width rows).cons line = .taken block rest →
          ∃ front, row :: rows = front ++ rest ∧ front.length = block.length ∧
            BlockLine.sizeAll width block ≤ (unlines front).length := by
        intro line fits found
        cases scanned : takeBlock unit level width rows with
        | shallower => simp [scanned, BlockScan.cons] at found
        | taken others left =>
            simp only [scanned, BlockScan.cons, BlockScan.taken.injEq] at found
            rcases found with ⟨rfl, rfl⟩
            rcases ih scanned with ⟨front, rfl, length, size⟩
            refine ⟨row :: front, rfl, congrArg Nat.succ length, ?_⟩
            have split : unlines (row :: front) = '\n' :: (row ++ unlines front) := by
              simp [unlines]
            rw [split, BlockLine.sizeAll, List.length_cons, List.length_append]
            omega
      unfold takeBlock at taken
      extract_lets found at taken
      split at taken
      · next indented =>
          have within := indentWidth_le_length unit row
          refine more _ ?_ taken
          simp only [BlockLine.size, if_true, List.length_drop]
          omega
      · split at taken
        · refine more _ ?_ taken
          simp only [BlockLine.size, Bool.false_eq_true, if_false, List.length_drop]
          omega
        · split at taken
          · cases taken
          · cases taken
            exact ⟨[], rfl, rfl, Nat.le_refl _⟩

theorem isPrefix_dropEmptyEnd (block : List BlockLine) : dropEmptyEnd block <+: block := by
  rw [← List.reverse_suffix, dropEmptyEnd, List.reverse_reverse]
  exact List.dropWhile_suffix _

theorem goes_repeatRule {rule : Scanning Bool} (goes : Goes rule) (budget : Nat) :
    Goes (repeatRule rule budget) := by
  intro log corner scanner room
  induction budget generalizing scanner with
  | zero => exact .pure room ()
  | succ budget ih =>
      refine (goes log corner scanner room).bind ?_
      intro matched middle _ further
      cases matched with
      | false => exact .pure further.room ()
      | true => exact ih middle further.room

/-- The lines that a block takes are not left to be read. -/
theorem moves_takenBlock (goes : Goes inner) (room : scanner.HasRoom corner) {others : List Char}
    (unread : scanner.unread = '\n' :: others) {unit : IndentUnit} {level width : Nat}
    {block : List BlockLine} {rest : List (List Char)}
    (taken : takeBlock unit level width (lines (scanner.unread.drop 1)) = .taken block rest) :
    Moves log corner (do
        MonadStateOf.set
          { (scanner.logged log).pushHere .startTextBlock with unread := unlines rest }
        addLines inner width true (if rest.isEmpty then dropEmptyEnd block else block)
        modify (·.pushHere .endTextBlock)
        return true)
      (do
        MonadStateOf.set { scanner.pushHere .startTextBlock with unread := unlines rest }
        addLines inner width true (if rest.isEmpty then dropEmptyEnd block else block)
        modify (·.pushHere .endTextBlock)
        return true)
      scanner := by
  rw [unread, List.drop_one, List.tail_cons] at taken
  rcases exists_append_of_takeBlock taken with ⟨front, rows, length, size⟩
  have parts : scanner.unread = unlines front ++ unlines rest := by
    rw [unread, ← unlines_lines, rows]
    simp [unlines]
  have atLeast := length_le_count_unlines front
  have shorter : (if rest.isEmpty then dropEmptyEnd block else block) <+: block := by
    split
    · exact isPrefix_dropEmptyEnd block
    · exact List.prefix_rfl
  rcases shorter with ⟨ending, whole⟩
  have oneLine : ∀ line ∈ if rest.isEmpty then dropEmptyEnd block else block,
      '\n' ∉ line.text := newline_not_mem_of_takeBlock taken
  generalize (if rest.isEmpty then dropEmptyEnd block else block) = left at oneLine whole
  subst whole
  rw [BlockLine.sizeAll_append] at size
  rw [List.length_append] at length
  have began : GoesTo corner scanner
      { scanner.pushHere .startTextBlock with unread := unlines rest } :=
    ((GoesTo.refl room).pushHere .startTextBlock).keep rfl rfl rfl rfl
      (parts ▸ List.suffix_append _ _)
  refine .set_bind rfl began ?_
  generalize openedFound :
    ({ scanner.pushHere .startTextBlock with unread := unlines rest } : Scanner) = opened
  have lines : opened.lastLine + left.length ≤ corner.line := by
    have enough := room.1
    rw [lastLine, parts, List.count_append] at enough
    simp only [← openedFound, lastLine, pushHere, push]
    omega
  have columns : opened.lastColumn + 2 * BlockLine.sizeAll width left ≤ corner.column := by
    have enough := room.2
    rw [lastColumn, parts, List.length_append] at enough
    simp only [← openedFound, lastColumn, pushHere, push]
    omega
  refine (moves_addLines goes lines columns oneLine).bind ?_
  intro _ after _ further
  have closed := (GoesTo.refl further.room).pushHere .endTextBlock
  exact .modify_bind rfl closed (.pure closed.room true)

theorem moves_textBlock (goes : Goes inner) {budget : Nat} {requested : Option Nat}
    (room : scanner.HasRoom corner) (atLine : requested ≠ none → ['\n'] <+: scanner.unread) :
    Moves log corner
      (Rule.textBlock (SimpleRule.run Rule.blankLine) inner budget requested)
      (Rule.textBlock (SimpleRule.run Rule.blankLine) inner budget requested) scanner := by
  induction budget generalizing scanner requested with
  | zero => exact .pure room false
  | succ budget ih =>
      refine .get_bind ?_
      rw [unread_logged]
      refine (goes_repeatRule Rule.goes_blankLine.run _ log corner scanner room).bind ?_
      intro _ middle done further
      rcases ensures_repeatBlank _ _ _ done with ⟨-, staysAtLine⟩
      have measured := finds_measure? log middle
      cases found : middle.measure? with
      | none =>
          -- No width was requested, as the text does not begin with a newline.
          have notRequested : requested = none := by
            by_contra isRequested
            exact measure?_ne_none (staysAtLine (atLine isRequested)) found
          subst notRequested
          refine .modifyGet_bind none ?_ ?_ (.refl further.room) ?_
          · simp only [measured.same, found]
            rfl
          · simp only [found]
          · exact .pure further.room false
      | some result =>
          rcases result with ⟨width, later⟩
          rcases measured.holds _ found with ⟨⟨others, unreadMiddle, -⟩, unit, sameButUnit⟩
          have withUnit : GoesTo corner middle later := by
            rw [show later = { middle with unit := unit } from sameButUnit]
            exact (GoesTo.refl further.room).keep rfl rfl rfl rfl List.suffix_rfl
          have unread : later.unread = '\n' :: others := by
            rw [show later = { middle with unit := unit } from sameButUnit]
            exact unreadMiddle
          refine .modifyGet_bind (some width) ?_ ?_ withUnit ?_
          · simp only [measured.same, found]
            rfl
          · simp only [found]
          have chosen : ∃ chosen, (requested <|> some width) = some chosen := by
            cases requested with
            | none => exact ⟨width, rfl⟩
            | some asked => exact ⟨asked, rfl⟩
          rcases chosen with ⟨chosen, choice⟩
          rw [choice]
          refine .get_bind ?_
          dsimp +instances only [top_logged, unit_logged, unread_logged]
          split
          · exact .pure withUnit.room false
          · split
            · exact ih withUnit.room fun _ => unread ▸ List.prefix_append ['\n'] others
            · next block rest taken =>
                exact moves_takenBlock goes withUnit.room unread taken

end

end Offside
