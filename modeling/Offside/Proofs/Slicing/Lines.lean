import Offside.Proofs.Levels.Stack
import Offside.Proofs.Slicing.Keywords
import Offside.Proofs.Slicing.Names
import Offside.Proofs.Slicing.Text
import Offside.Proofs.TextBlock.Lines

/-!
# Lines and text blocks by byte offset

Indentation is trimmed off a line, and its width is how many bytes that takes. The lines of a text
block are found by the offsets of their newlines in the text that is unread.
-/

namespace Offside.Slicing

open Offside.Bracket (byteLength)
open Computing Text

namespace Matcher

/-! ### Indentation -/

/-- The indentation behind the newline that comes next. The first indented line fixes the unit. -/
def measure : Reading (Option Nat) := do
  match ← unread with
  | '\n' :: behind =>
      let tabs ← leading (· == '\t') behind
      let spaces ← leading (· == ' ') behind
      match (← here).unit with
      | some .tab => return some tabs
      | some .space => return some spaces
      | none =>
          if 0 < tabs then
            update fun place => { place with unit := some .tab }
            return some tabs
          else if 0 < spaces then
            update fun place => { place with unit := some .space }
            return some spaces
          else
            return some spaces
  | _ => return none

/-- Compare the width of a new line with the entries of the stack, the outermost one last. -/
def align (width : Nat) : Reading Unit := do
  let place ← here
  if width < place.top then
    match ← checked (closeEntries? width (place.levels ++ [0])) with
    | .error (outer, inner) => fail (.inconsistentIndentation outer inner)
    | .ok (closed, entries) =>
        update fun place =>
          (List.replicate closed ()).foldl (fun left _ => left.pushOutdent)
            ({ place with levels := entries.dropLast }.note (.outdented closed width))
  else if place.top < width then
    update fun place =>
      let moved := { place with position := ⟨place.position.line, 1 + width⟩ }
      { (moved.note (.indented width)).push (.indent width) place.position with
        levels := width :: place.levels }
  else
    update fun place =>
      { place with position := ⟨place.position.line, 1 + width⟩ }.push .newline place.position

/-- A newline, its indentation, and the layout tokens that follow from it. -/
def indentation : Reading Bool := do
  match ← measure with
  | none => return false
  | some width =>
      update (·.nextLine)
      consume (width + 1)
      match ← unread with
      | ' ' :: _ | '\t' :: _ => fail .invalidIndentation
      | '\n' :: _ =>
          update fun place => { place with markersAllowed := true }
          return true
      | _ =>
          align width
          update fun place => { place with markersAllowed := true }
          return true

/-! ### Text blocks -/

/-- How a scan of the lines of a block ends. -/
inductive Scan where
  /-- The lines that belong to the block, from whose end on the text is left, and for each line that
  was looked at whether it has the whole indentation. -/
  | taken (stop : Nat) (rows : List (List Char)) (indented : List Bool)
  /-- A line that belongs to the block is indented less than the others. -/
  | shallower (width : Nat)

/-- The scan of a block that has one more line in front. -/
def Scan.cons (row : List Char) (deep : Bool) : Scan → Scan
  | taken stop rows indented => taken stop (row :: rows) (deep :: indented)
  | shallower width => shallower width

/-- Take the lines of a block with a certain width from the newline at an offset on. -/
def scanLines (unit : IndentUnit) (level width : Nat) (text : List Char) (offset : Nat) :
    Reading Scan := do
  let behind ← sliceFrom text (offset + 1)
  let stop := lineEnd text (offset + 1) behind
  let line ← slice text (offset + 1) stop
  let found ← leading (· == unit.character) line
  if width ≤ found || isBlank line then
    if _more : stop < byteLength text then
      let others ← scanLines unit level width text stop
      return others.cons (line.drop width) (width ≤ found)
    else
      return .taken stop [line.drop width] [decide (width ≤ found)]
  else if level < found then
    return .shallower found
  else
    return .taken offset [] [decide (width ≤ found)]
termination_by byteLength text - offset
decreasing_by
  have later := le_lineEnd _more
  omega

/-- Add the tokens of the lines of a block. Which of them are indented is looked up by index. -/
def addLines (inner : Reading Unit) (width : Nat) (indented : List Bool) :
    (index : Nat) → List (List Char) → Reading Unit
  | _, [] => pure ()
  | index, row :: rows => do
      update (·.nextLine)
      let start ← here
      let deep ← checked indented[index]?
      update fun place => if deep then place.right width else place
      update fun place => if index = 0 then place else place.push .newline start.position
      addRun inner false row
      addLines inner width indented (index + 1) rows

/-- Read the lines of a block up to an offset. Empty lines at the end of the text are left out. -/
def readBlock (inner : Reading Unit) (width stop : Nat) (rows : List (List Char))
    (indented : List Bool) : Reading Bool := do
  update (·.pushHere .startTextBlock)
  consume stop
  let left ← unread
  addLines inner width indented 0
    (if left.isEmpty then (rows.reverse.dropWhile (·.isEmpty)).reverse else rows)
  update (·.pushHere .endTextBlock)
  return true

/-- A text block. -/
def textBlock (blank : Reading Bool) (inner : Reading Unit) :
    (budget : Nat) → (requested : Option Nat) → Reading Bool
  | 0, _ => pure false
  | budget + 1, requested => do
      let text ← unread
      repeatMatcher blank (text.length + 1)
      let scanned ← measure
      match requested <|> scanned with
      | none => return false
      | some width =>
          let place ← here
          if width ≤ place.top then
            return false
          else
            let text ← unread
            match ← scanLines (place.unit.getD .space) place.top width text 0 with
            | .shallower found => textBlock blank inner budget (some found)
            | .taken stop rows indented => readBlock inner width stop rows indented

/-! ### Text, comments and filters -/

/-- Add a run of text that stands behind some characters of a line. -/
def run (inner : Reading Unit) (skipped : Nat) (value : List Char) : Reading Bool := do
  consume (skipped + byteLength value)
  update (·.right skipped)
  addRun inner false value
  return true

/-- The rest of a line as text: behind a bar, or behind a space. -/
def text (inner : Reading Unit) : Reading Bool := do
  let line := firstLine (← unread)
  match line with
  | '|' :: ' ' :: first :: rest => run inner 2 (first :: rest)
  | '|' :: rest => run inner 1 rest
  | [' '] => run inner 0 [' ']
  | ' ' :: rest => run inner 1 rest
  | _ => return false

/-- A line that begins with an angle bracket is copied to the page. -/
def html (inner : Reading Unit) : Reading Bool := do
  let text ← unread
  match text with
  | '<' :: _ =>
      let line := firstLine text
      consume (byteLength line)
      addRun inner true line
      return true
  | _ => return false

/-- The text of a comment, which may begin with a dash. -/
def commentText (hidden : Bool) (line : List Char) : Reading (List Char) :=
  if hidden then sliceFrom line 1 else pure line

/-- A comment, with the text block that may belong to it. -/
def comment (block : Reading Bool) : Reading Bool := do
  match ← unread with
  | '/' :: '/' :: behind =>
      let line := firstLine behind
      let hidden := behind.head? == some '-'
      let value ← commentText hidden line
      update fun place => { place with markersAllowed := !hidden }
      emit (.comment (String.ofList value) !hidden) (2 + byteLength line)
      let _ ← block
      return true
  | _ => return false

/-- A dot at the end of a line announces a text block. -/
def dot (block : Reading Bool) : Reading Bool := do
  match ← unread with
  | '.' :: _ =>
      match ← scanEndOfLine 1 .dot with
      | none => return false
      | some token =>
          update (·.pushToken token)
          let _ ← block
          return true
  | _ => return false

/-- The name of a filter, in quotes or plain, and how many bytes the filter takes. -/
def filterName (behind : List Char) : Reading (Option (List Char × Nat)) := do
  let length := nameLength behind
  if 0 < length then
    let name ← sliceTo behind length
    return some (name, 1 + length)
  else
    match behind with
    | quote :: _ =>
        if isQuoteMark quote then
          let line := firstLine (← sliceFrom behind 1)
          match findLast? quote line with
          | some close =>
              if 0 < close then
                let name ← sliceTo line close
                return some (name, close + 3)
              else
                return none
          | none => return none
        else
          return none
    | [] => return none

/-- A filter with its attributes, and outside an include with the text block it works on. -/
def filter (attributes : Reading Bool) (block : Option (Reading Bool)) : Reading Bool := do
  match ← unread with
  | ':' :: behind =>
      match ← filterName behind with
      | none => return false
      | some (name, length) =>
          emit (.filter (String.ofList name)) length
          let _ ← attributes
          match block with
          | none => return true
          | some block =>
              update fun place => { place with markersAllowed := false }
              let _ ← block
              return true
  | _ => return false

/-! ### Indentation by bytes -/

section

variable {β : Type} {front : List Char} {place scanner : Scanner} {rule : Scanning β}

/-- An indentation is as wide as it is long in bytes. -/
theorem leading_eq_indentWidth (unit : IndentUnit) (line : List Char) :
    leading (· == unit.character) line = pure (indentWidth unit line) := by
  rw [leading_eq, indentWidth, byteLength_takeWhile fun _ => utf8Size_of_eq (by cases unit <;> rfl)]

theorem measure?_eq {behind : List Char} (unread_eq : place.unread = '\n' :: behind) :
    place.measure? =
      match place.unit with
      | some unit => some (indentWidth unit behind, place)
      | none =>
          if 0 < indentWidth .tab behind then
            some (indentWidth .tab behind, { place with unit := some .tab })
          else if 0 < indentWidth .space behind then
            some (indentWidth .space behind, { place with unit := some .space })
          else
            some (0, place) := by
  unfold Scanner.measure?
  split
  · next rest same =>
      rw [unread_eq] at same
      cases same
      rfl
  · next noNewline => exact absurd unread_eq (noNewline behind)

theorem follows_measure {next : Option Nat → Reading β}
    (measured : ∀ width after, place.measure? = some (width, after) →
      Follows (next (some width)) (.behind front after) rule scanner)
    (noLine : place.measure? = none → Follows (next none) (.behind front place) rule scanner) :
    Follows (measure >>= next) (.behind front place) rule scanner := by
  rw [measure, bind_assoc]
  refine .unread ?_
  split
  · next behind unread_eq =>
      rw [bind_assoc]
      refine .of_eq (leading_eq_indentWidth .tab behind) ?_
      rw [bind_assoc]
      refine .of_eq (leading_eq_indentWidth .space behind) ?_
      rw [bind_assoc]
      refine .here ?_
      rw [show (Reader.behind front place).place.unit = place.unit from rfl]
      rw [measure?_eq unread_eq] at measured
      split
      · next unit =>
          rw [pure_bind]
          exact measured _ _ (by rw [unit])
      · next unit =>
          rw [pure_bind]
          exact measured _ _ (by rw [unit])
      · next unit =>
          rw [unit] at measured
          dsimp only at measured
          split
          · next tabs =>
              rw [if_pos tabs] at measured
              rw [bind_assoc]
              exact .update (fun _ => rfl) (measured _ _ rfl)
          · next noTabs =>
              rw [if_neg noTabs] at measured
              split
              · next spaces =>
                  rw [if_pos spaces] at measured
                  rw [bind_assoc]
                  exact .update (fun _ => rfl) (measured _ _ rfl)
              · next noSpaces =>
                  have zero : indentWidth .space behind = 0 := by omega
                  rw [if_neg noSpaces] at measured
                  rw [pure_bind, zero]
                  exact measured _ _ rfl
  · next noNewline =>
      rw [pure_bind]
      refine noLine ?_
      unfold Scanner.measure?
      split
      · next behind unread_eq => exact absurd unread_eq (noNewline behind)
      · rfl

theorem follows_align {next : Unit → Reading β} {width : Nat}
    {result : Except (Diagnostic TokenFault) Scanner} (same : place.align width = result)
    (aligned : ∀ after, result = .ok after →
      Follows (next ()) (.behind front after) rule scanner)
    (failed : ∀ fault, result = .error fault →
      ∃ stopped, rule scanner = .error fault stopped ∧ stopped.events = place.events) :
    Follows (align width >>= next) (.behind front place) rule scanner := by
  unfold Scanner.align at same
  extract_lets line at same
  rw [align, bind_assoc]
  refine .here ?_
  change Follows ((if width < place.top then _ else if place.top < width then _ else _) >>= next)
    _ _ _
  split
  · next less =>
      rw [if_pos less] at same
      rw [show (Reader.behind front place).place.levels = place.levels from rfl,
        closeEntries?_eq, bind_assoc]
      refine .of_eq rfl ?_
      cases found : closeLevels width place.levels with
      | error neighbours =>
          rw [found] at same
          rcases failed _ same.symm with ⟨stopped, ruled, events⟩
          dsimp only [Except.map]
          rw [fail_bind]
          exact .fail ruled rfl events.symm
      | ok closing =>
          rw [found] at same
          dsimp only [Except.map]
          rw [List.dropLast_concat]
          refine .update (fun text => ?_) (aligned _ same.symm)
          exact @foldl_unread _ Scanner.pushOutdent (fun _ _ => rfl) _
            ({ place with levels := closing.2 }.note (.outdented closing.1 width)) text
  · next notLess =>
      rw [if_neg notLess] at same
      split
      · next more =>
          rw [if_pos more] at same
          exact .update (fun _ => rfl) (aligned _ same.symm)
      · next notMore =>
          rw [if_neg notMore] at same
          exact .update (fun _ => rfl) (aligned _ same.symm)

theorem mirrors_indentation : Mirrors indentation (CheckedRule.run Rule.indentation) := by
  intro front scanner
  refine follows_measure (fun width measured found => ?_) fun noLine => ?_
  · rcases exists_of_measure? found with ⟨behind, unit, unitAfter, unread_eq, width_eq, measured_eq⟩
    have blanks : byteLength (behind.takeWhile (· == unit.character)) = width := by
      rw [width_eq, indentWidth,
        byteLength_takeWhile fun _ => utf8Size_of_eq (by cases unit <;> rfl)]
    have cut : measured.nextLine.unread =
        ('\n' :: behind.takeWhile (· == unit.character)) ++
          behind.dropWhile (· == unit.character) := by
      rw [measured_eq, List.cons_append, List.takeWhile_append_dropWhile]
      exact unread_eq
    generalize behind.dropWhile (· == unit.character) = rest at cut
    have dropped : measured.nextLine.drop (width + 1) =
        { measured.nextLine with unread := rest } := by
      rw [Scanner.drop, cut, width_eq]
      exact congrArg (fun text => { measured.nextLine with unread := text }) List.drop_left
    have log : scanner.events = measured.nextLine.events := by
      rw [measured_eq]
      rfl
    have ruled : Rule.indentation scanner =
        let next := { measured.nextLine with unread := rest }
        match rest with
        | ' ' :: _ | '\t' :: _ => .error (next.fault .invalidIndentation)
        | '\n' :: _ => .ok (some { next with markersAllowed := true })
        | _ => do
            let aligned ← next.align width
            return some { aligned with markersAllowed := true } := by
      rw [Rule.indentation, found]
      dsimp only
      rewrite [dropped]
      rfl
    refine .update (fun _ => rfl) (.consume cut ?_ (.unread ?_))
    · rw [byteLength, blanks, Nat.add_comm]
      rfl
    dsimp only at ruled ⊢
    split at ruled
    · exact .checkedFailed ruled rfl log.symm
    · exact .checkedFailed ruled rfl log.symm
    · exact .update (fun _ => rfl) (.checkedMatched ruled)
    · refine follows_align rfl (fun after aligned => ?_) fun fault failure => ?_
      · rw [aligned] at ruled
        exact .update (fun _ => rfl) (.checkedMatched ruled)
      · rw [failure] at ruled
        exact ⟨scanner, by rw [CheckedRule.run, ruled]; rfl, log⟩
  · exact .checkedDeclined (by rw [Rule.indentation, noLine])

/-! ### Text blocks by bytes -/

theorem endsLine_unlines (rows : List (List Char)) : EndsLine (unlines rows) := by
  cases rows <;> simp [EndsLine, unlines]

/-- How a scan by offsets ends where the lines of a block are taken. -/
def Scan.Matches (text : List Char) : Scan → BlockScan → Prop
  | .taken stop rows indented, .taken block rest =>
      (∃ front, text = front ++ unlines rest ∧ byteLength front = stop) ∧
        rows = block.map (·.text) ∧ block.map (·.indented) <+: indented
  | .shallower width, .shallower found => width = found
  | _, _ => False

theorem Scan.Matches.cons {text : List Char} {scan : Scan} {found : BlockScan}
    (matching : scan.Matches text found) (line : BlockLine) :
    (scan.cons line.text line.indented).Matches text (found.cons line) := by
  cases scan with
  | taken stop rows indented =>
      cases found with
      | taken block rest =>
          rcases matching with ⟨left, rows_eq, indented_eq⟩
          exact ⟨left, by rw [rows_eq]; rfl, (List.prefix_cons_inj _).mpr indented_eq⟩
      | shallower => exact matching.elim
  | shallower width =>
      cases found with
      | taken => exact matching.elim
      | shallower => exact matching

/-- The lines of a block are slices of the text. -/
theorem scanLines_eq {text front : List Char} {unit : IndentUnit} {level width offset : Nat}
    {rows : List (List Char)} (cut : text = front ++ unlines rows)
    (offset_eq : byteLength front = offset) (some : rows ≠ [])
    (oneLine : ∀ row ∈ rows, '\n' ∉ row) :
    ∃ scan, scanLines unit level width text offset = pure scan ∧
      scan.Matches text (takeBlock unit level width rows) := by
  induction rows generalizing front offset with
  | nil => exact absurd rfl some
  | cons row rows ih =>
      rw [List.forall_mem_cons] at oneLine
      have begun : text = (front ++ ['\n']) ++ (row ++ unlines rows) := by
        rw [cut, unlines_cons]
        simp
      have newline : byteLength (front ++ ['\n']) = offset + 1 := by
        rw [byteLength_append, offset_eq]
        rfl
      have whole : text = (front ++ ['\n']) ++ row ++ unlines rows := by
        rw [begun]
        simp only [List.append_assoc]
      have read : byteLength (front ++ ['\n'] ++ row) = offset + 1 + byteLength row := by
        rw [byteLength_append, newline]
      rw [scanLines, sliceFrom_eq begun newline, pure_bind, lineEnd_eq begun newline,
        firstLine_append oneLine.1 (endsLine_unlines rows)]
      dsimp only
      rw [slice_eq whole newline (by rw [newline]), pure_bind, leading_eq_indentWidth, pure_bind]
      generalize found_eq : indentWidth unit row = found
      split
      · next matched =>
          have fits : width ≤ indentWidth unit row ∨ isBlank row = true := by
            simpa [found_eq] using matched
          rw [takeBlock_cons_of_fits fits, blockLine, found_eq]
          split
          · next more =>
              have someRows : rows ≠ [] := by
                rintro rfl
                rw [whole, byteLength_append, read] at more
                simp [unlines, byteLength] at more
              rcases ih whole read someRows oneLine.2 with ⟨others, scanned, matching⟩
              refine ⟨others.cons (row.drop width) (width ≤ found), ?_,
                matching.cons ⟨row.drop width, width ≤ found⟩⟩
              rw [scanned]
              rfl
          · next last =>
              obtain rfl : rows = [] := by
                have bytes := congrArg byteLength whole
                rw [byteLength_append, read] at bytes
                have empty : unlines rows = [] := byteLength_eq_zero_iff.mp (by omega)
                cases rows with
                | nil => rfl
                | cons => simp [unlines] at empty
              refine ⟨_, rfl, ⟨_, whole, read⟩, rfl, List.prefix_rfl⟩
      · next unmatched =>
          have noDepth : ¬width ≤ found := fun deep => unmatched (by simp [deep])
          have noBlank : ¬isBlank row = true := fun blank => unmatched (by simp [blank])
          rw [takeBlock, found_eq]
          rw [if_neg noDepth, if_neg noBlank]
          split
          · exact ⟨_, rfl, rfl⟩
          · exact ⟨_, rfl, ⟨_, cut, offset_eq⟩, rfl, List.nil_prefix⟩

section

variable {inner : Reading Unit} {innerRule : Scanning Unit}

theorem mirrors_addLines (mirrors : Mirrors inner innerRule) (width : Nat) {indented : List Bool}
    {index : Nat} {block : List BlockLine}
    (known : block.map (·.indented) <+: indented.drop index) :
    Mirrors (addLines inner width indented index (block.map (·.text)))
      (Offside.addLines innerRule width (index == 0) block) := by
  induction block generalizing index with
  | nil => exact fun _ _ => .pure
  | cons line block ih =>
      intro front scanner
      rcases known with ⟨others, known⟩
      have deep : indented[index]? = some line.indented := by
        rw [← List.head?_drop, ← known]
        rfl
      have later : block.map (·.indented) <+: indented.drop (index + 1) :=
        ⟨others, by rw [← List.tail_drop, ← known]; rfl⟩
      rw [List.map_cons, addLines, Offside.addLines]
      refine .get (.update (fun _ => rfl) (.here ?_))
      rw [deep]
      refine .of_eq rfl (.update (fun text => ?_) (.update (fun text => ?_) ?_))
      · dsimp only
        split <;> rfl
      · dsimp only
        split <;> rfl
      · cases index with
        | zero => exact .set (.bind (mirrors_addRun mirrors _ _ _ _) fun _ front after _ =>
            ih later front after)
        | succ index => exact .set (.bind (mirrors_addRun mirrors _ _ _ _) fun _ front after _ =>
            ih later front after)

theorem dropEmptyEnd_map_text (block : List BlockLine) :
    ((block.map (·.text)).reverse.dropWhile (·.isEmpty)).reverse =
      (dropEmptyEnd block).map (·.text) := by
  rw [dropEmptyEnd, List.map_reverse, ← List.map_reverse, List.dropWhile_map]
  rfl

theorem follows_readBlock (mirrors : Mirrors inner innerRule) {width stop : Nat}
    {block : List BlockLine} {rest : List (List Char)} {read : List Char} {indented : List Bool}
    (cut : scanner.unread = read ++ unlines rest) (stop_eq : byteLength read = stop)
    (known : block.map (·.indented) <+: indented) :
    Follows (readBlock inner width stop (block.map (·.text)) indented) (.behind front scanner)
      (do
        let opened := scanner.pushHere .startTextBlock
        MonadStateOf.set { opened with unread := unlines rest }
        Offside.addLines innerRule width true (if rest.isEmpty then dropEmptyEnd block else block)
        modify (·.pushHere .endTextBlock)
        return true) scanner := by
  have moved : (scanner.pushHere .startTextBlock).unread = read ++ unlines rest := cut
  have empty : (unlines rest).isEmpty = rest.isEmpty := by cases rest <;> rfl
  have fewer : dropEmptyEnd block <+: block := by
    rw [dropEmptyEnd, ← List.reverse_suffix, List.reverse_reverse]
    exact List.dropWhile_suffix _
  have knownFewer : (dropEmptyEnd block).map (·.indented) <+: indented :=
    (fewer.map _).trans known
  refine .update (fun _ => rfl) (.consume moved stop_eq (.unread (.set ?_)))
  dsimp only
  rw [empty, dropEmptyEnd_map_text]
  cases rest with
  | nil =>
      exact .bind (@mirrors_addLines _ _ mirrors width indented 0 _ knownFewer _ _)
        fun _ _ _ _ => .update (fun _ => rfl) (.modify .pure)
  | cons row rest =>
      exact .bind (@mirrors_addLines _ _ mirrors width indented 0 _ known _ _)
        fun _ _ _ _ => .update (fun _ => rfl) (.modify .pure)

/-- A text block is found by offsets where it is found by its lines. -/
theorem follows_textBlock (mirrors : Mirrors inner innerRule) {budget : Nat}
    {requested : Option Nat} (atLine : requested ≠ none → ['\n'] <+: scanner.unread) :
    Follows (textBlock blankLine inner budget requested) (.behind front scanner)
      (Rule.textBlock (SimpleRule.run Rule.blankLine) innerRule budget requested) scanner := by
  induction budget generalizing front scanner requested with
  | zero => exact .pure
  | succ budget ih =>
      rw [textBlock, Rule.textBlock]
      refine .get (.unread ?_)
      refine .bind (mirrors_repeatMatcher mirrors_blankLine _ _ _) fun _ front middle skipped => ?_
      have staysAtLine := (ensures_repeatBlank _ _ _ skipped).2
      refine follows_measure (fun width measured found => ?_) fun noLine => ?_
      · refine .modifyGet (by rw [found]) ?_
        have atLineMeasured := (extends_of_measure? found).1
        generalize (requested <|> some width) = chosen
        cases chosen with
        | none => exact .pure
        | some chosen =>
            refine .here (.get ?_)
            change Follows (if chosen ≤ measured.top then pure false else _)
              (.behind front measured) (if chosen ≤ measured.top then pure false else _) measured
            by_cases within : chosen ≤ measured.top
            · rw [if_pos within, if_pos within]
              exact .pure
            · rw [if_neg within, if_neg within]
              have whole : measured.unread = [] ++ unlines (lines (measured.unread.drop 1)) := by
                rcases atLineMeasured with ⟨behind, unread_eq⟩
                rw [← unread_eq, unlines_lines]
                rfl
              refine .unread ?_
              rcases @scanLines_eq _ _ (measured.unit.getD .space) measured.top chosen _ _ whole rfl
                (lines_ne_nil _) newline_not_mem_of_mem_lines with ⟨scan, scanned, matching⟩
              refine .of_eq scanned ?_
              generalize takeBlock _ _ _ _ = taken at matching ⊢
              cases taken with
              | shallower width =>
                  cases scan with
                  | shallower found =>
                      obtain rfl : found = width := matching
                      exact ih fun _ => atLineMeasured
                  | taken => exact matching.elim
              | taken block rest =>
                  cases scan with
                  | shallower => exact matching.elim
                  | taken stop rows indented =>
                      rcases matching with ⟨⟨read, cut, stop_eq⟩, rfl, known⟩
                      exact follows_readBlock mirrors cut stop_eq known
      · have unasked : requested = none := by
          by_contra asked
          exact measure?_ne_none (staysAtLine (atLine asked)) noLine
        subst unasked
        refine .modifyGet (by rw [noLine]) .pure

/-! ### Text, comments and filters by bytes -/

theorem follows_run (mirrors : Mirrors inner innerRule) {line value : List Char} {skipped : Nat}
    (line_eq : firstLine scanner.unread = line)
    (length_eq : byteLength line = skipped + byteLength value) :
    Follows (run inner skipped value) (.behind front scanner)
      (do
        MonadStateOf.set ((scanner.drop line.length).right skipped)
        Offside.addRun innerRule false value
        return true) scanner := by
  subst line_eq
  refine .consume firstLine_append_drop.symm length_eq (.update (fun _ => rfl) (.set ?_))
  exact .bind (mirrors_addRun mirrors _ _ _ _) fun _ _ _ _ => .pure

theorem mirrors_text (mirrors : Mirrors inner innerRule) :
    Mirrors (text inner) (Rule.text innerRule) := by
  intro front scanner
  have length_eq (skipped value : List Char) :
      byteLength (skipped ++ value) = byteLength skipped + byteLength value :=
    byteLength_append skipped value
  unfold Rule.text
  refine .unread ?_
  dsimp only
  split
  · next first rest line_eq =>
      refine .get ?_
      simp only [line_eq]
      exact follows_run mirrors line_eq (length_eq ['|', ' '] (first :: rest))
  · next rest noBody line_eq =>
      refine .get ?_
      simp only [line_eq]
      exact follows_run mirrors line_eq (length_eq ['|'] rest)
  · next line_eq =>
      refine .get ?_
      simp only [line_eq]
      exact follows_run mirrors line_eq (length_eq [] [' '])
  · next rest someText line_eq =>
      refine .get ?_
      simp only [line_eq]
      exact follows_run mirrors line_eq (length_eq [' '] rest)
  · next noBody noBar noBlank noSpace =>
      refine .get ?_
      split
      · next line_eq => exact absurd line_eq (noBody _ _)
      · next line_eq => exact absurd line_eq (noBar _)
      · next line_eq => exact absurd line_eq noBlank
      · next line_eq => exact absurd line_eq (noSpace _)
      · exact .pure

theorem mirrors_html (mirrors : Mirrors inner innerRule) :
    Mirrors (html inner) (Rule.html innerRule) := by
  intro front scanner
  unfold Rule.html
  refine .unread ?_
  split
  · next rest unread_eq =>
      refine .consume firstLine_append_drop.symm rfl (.get ?_)
      split
      · exact .set (.bind (mirrors_addRun mirrors _ _ _ _) fun _ _ _ _ => .pure)
      · next other => exact absurd unread_eq (other rest)
  · next other =>
      refine .get ?_
      split
      · next rest unread_eq => exact absurd unread_eq (other rest)
      · exact .pure

variable {block : Reading Bool} {blockRule : Scanning Bool}

theorem mirrors_dot (mirrors : Mirrors block blockRule) :
    Mirrors (dot block) (Rule.dot blockRule) := by
  intro front scanner
  unfold Rule.dot
  refine .unread ?_
  split
  · next rest unread_eq =>
      have cut : scanner.unread = ['.'] ++ rest := unread_eq
      refine .get ?_
      simp only [unread_eq]
      refine .scanEndOfLine cut rfl (fun token after front ended => ?_) fun noEnd => ?_
      · simp only [ended]
        exact .update (fun _ => rfl) (.set (.bind (mirrors _ _) fun _ _ _ _ => .pure))
      · simp only [noEnd]
        exact .pure
  · next other =>
      refine .get ?_
      split
      · next rest unread_eq => exact absurd unread_eq (other rest)
      · exact .pure

/-- The text of the comment on a line, and whether it is copied to the page. -/
def commentOf (line : List Char) : List Char × Bool :=
  match line with
  | '-' :: hidden => (hidden, false)
  | _ => (line, true)

theorem commentText_eq (behind : List Char) :
    commentText (behind.head? == some '-') (firstLine behind) =
        pure (commentOf (firstLine behind)).1 ∧
      (!(behind.head? == some '-')) = (commentOf (firstLine behind)).2 := by
  cases behind with
  | nil => exact ⟨rfl, rfl⟩
  | cons first others =>
      by_cases dash : first = '-'
      · subst dash
        have line : firstLine ('-' :: others) = '-' :: firstLine others := rfl
        rw [line]
        exact ⟨sliceFrom_eq (List.singleton_append ..).symm rfl, rfl⟩
      · have shown : commentOf (firstLine (first :: others)) =
            (firstLine (first :: others), true) := by
          unfold commentOf
          split
          · next hidden line =>
              have isPrefix : firstLine (first :: others) <+: first :: others :=
                List.takeWhile_prefix _
              rw [line, List.cons_prefix_cons] at isPrefix
              exact absurd isPrefix.1.symm dash
          · rfl
        have noDash : ((first :: others).head? == some '-') = false := by simp [dash]
        rw [shown, noDash]
        exact ⟨rfl, rfl⟩

theorem comment_eq {scanner : Scanner} {behind : List Char}
    (unread_eq : scanner.unread = '/' :: '/' :: behind) :
    Rule.comment blockRule scanner =
      (do
        let (value, buffered) := commentOf (firstLine behind)
        MonadStateOf.set ({ scanner with markersAllowed := buffered }.emit
          (.comment (String.ofList value) buffered) (2 + (firstLine behind).length))
        let _ ← blockRule
        return true : Scanning Bool) scanner := by
  rw [Rule.comment, get_bind_eq]
  simp only [unread_eq]
  rfl

theorem mirrors_comment (mirrors : Mirrors block blockRule) :
    Mirrors (comment block) (Rule.comment blockRule) := by
  intro front scanner
  refine .unread ?_
  split
  · next behind unread_eq =>
      have cut : scanner.unread = ('/' :: '/' :: firstLine behind) ++
          behind.drop (firstLine behind).length := by
        rw [unread_eq, List.cons_append, List.cons_append, firstLine_append_drop]
      have length : ('/' :: '/' :: firstLine behind).length = 2 + (firstLine behind).length := by
        rw [List.length_cons, List.length_cons]
        omega
      rcases commentText_eq behind with ⟨value, shown⟩
      refine .of_rule_eq (comment_eq unread_eq) (.of_eq value (.update (fun _ => rfl) ?_))
      rw [shown]
      refine .emit cut ?_ ?_
      · rw [byteLength, byteLength, ← Nat.add_assoc]
        rfl
      · rw [length]
        exact .set (.bind (mirrors _ _) fun _ _ _ _ => .pure)
  · next other =>
      rw [Rule.comment]
      refine .get ?_
      split
      · next rest unread_eq => exact absurd unread_eq (other rest)
      · exact .pure

theorem filterName?_cons (first : Char) (others : List Char) :
    Rule.filterName? (first :: others) =
      if 0 < nameLength (first :: others) then
        some ((first :: others).takeWhile isWordOrDash,
          ((first :: others).takeWhile isWordOrDash).length)
      else if isQuoteMark first then
        match splitLast? first (firstLine others) with
        | none | some ([], _) => none
        | some (quoted, _) => some (quoted, quoted.length + 2)
      else none := by
  have named := nameLength_eq_zero_iff (first :: others)
  unfold Rule.filterName?
  dsimp only
  by_cases noName : nameLength (first :: others) = 0
  · rw [named.mp noName, noName]
    rfl
  · rw [Bool.eq_false_iff.mpr (mt named.mpr noName), if_pos (Nat.pos_of_ne_zero noName)]
    rfl

/-- The name of a filter is a slice of the text. -/
theorem filterName_cases (behind : List Char) :
    filterName behind = pure none ∧ Rule.filterName? behind = none ∨
      ∃ name taken rest, behind = taken ++ rest ∧
        filterName behind = pure (some (name, 1 + byteLength taken)) ∧
        Rule.filterName? behind = some (name, taken.length) := by
  cases behind with
  | nil => exact .inl ⟨rfl, rfl⟩
  | cons first others =>
      rw [filterName?_cons, filterName]
      by_cases named : 0 < nameLength (first :: others)
      · rw [if_pos named, if_pos named, sliceTo_nameLength, nameLength_eq]
        exact .inr ⟨_, _, _, List.takeWhile_append_dropWhile.symm, rfl, rfl⟩
      rw [if_neg named, if_neg named]
      dsimp only
      by_cases mark : isQuoteMark first = true
      · have ascii : first.utf8Size = 1 := by
          rcases Bool.or_eq_true_iff.mp mark with same | same
          all_goals
            obtain rfl := beq_iff_eq.mp same
            rfl
        have opening : first :: others = [first] ++ others := rfl
        rw [if_pos mark, if_pos mark, sliceFrom_eq opening ascii, pure_bind, findLast?_eq]
        cases closing : splitLast? first (firstLine others) with
        | none => exact .inl ⟨rfl, rfl⟩
        | some parts =>
            rcases parts with ⟨quoted, back⟩
            have line := eq_append_of_splitLast? closing
            cases quoted with
            | nil => exact .inl ⟨rfl, rfl⟩
            | cons next quoted =>
                generalize quoted_eq : next :: quoted = name at line
                have positive : 0 < byteLength name := by
                  rw [← quoted_eq]
                  have positive := next.utf8Size_pos
                  simp only [byteLength]
                  omega
                obtain ⟨behind, whole⟩ : firstLine others <+: others := List.takeWhile_prefix _
                refine .inr ⟨name, first :: name ++ [first], back ++ behind, ?_, ?_, ?_⟩
                · rw [← whole, line]
                  simp
                · rw [← quoted_eq] at positive ⊢
                  dsimp only [Option.map_some]
                  rw [if_pos positive, quoted_eq, sliceTo_eq line rfl, pure_bind]
                  have bytes : byteLength (first :: name ++ [first]) =
                      1 + (byteLength name + 1) := by
                    rw [List.cons_append, byteLength, byteLength_append, byteLength, ascii]
                    rfl
                  rw [bytes]
                  congr 3
                  omega
                · rw [← quoted_eq]
                  simp
      · rw [if_neg mark, if_neg mark]
        exact .inl ⟨rfl, rfl⟩

theorem mirrors_filter {attributes : Reading Bool} {attributesRule : Scanning Bool}
    (mirrorsAttributes : Mirrors attributes attributesRule)
    {block : Option (Reading Bool)} {blockRule : Option (Scanning Bool)}
    (mirrors : Option.Rel Mirrors block blockRule) :
    Mirrors (filter attributes block) (Rule.filter attributesRule blockRule) := by
  intro front scanner
  unfold Rule.filter
  refine .unread ?_
  split
  · next behind unread_eq =>
      refine .get ?_
      simp only [unread_eq]
      rcases filterName_cases behind with ⟨none, unnamed⟩ | ⟨name, taken, rest, parts, found, named⟩
      · refine .of_eq none ?_
        simp only [unnamed]
        exact .pure
      · have cut : scanner.unread = (':' :: taken) ++ rest := by
          rw [unread_eq, parts, List.cons_append]
        refine .of_eq found ?_
        simp only [named]
        refine .emit cut rfl ?_
        rw [List.length_cons, Nat.add_comm]
        refine .set (.bind (mirrorsAttributes _ _) fun _ front after _ => ?_)
        cases mirrors with
        | none => exact .pure
        | some mirrors =>
            exact .update (fun _ => rfl) (.modify (.bind (mirrors _ _) fun _ _ _ _ => .pure))
  · next other =>
      refine .get ?_
      split
      · next rest unread_eq => exact absurd unread_eq (other rest)
      · exact .pure

end

end

end Matcher

end Offside.Slicing
