import Offside.Proofs.Position.Run
import Offside.Proofs.Slicing.Reader

/-!
# Keywords by byte offset

The matchers for keywords compute the length of what they match in bytes, and take names, values
and paths out of the text as slices.
-/

namespace Offside.Slicing

open Offside.Bracket (byteLength)
open Text

namespace Matcher

/-! ### Matchers -/

/-- A keyword that must end its line. -/
def keywordLine (keyword : String) (kind : TokenKind) : Reading Bool := do
  let text ← unread
  match afterKeyword? keyword text with
  | none => return false
  | some _ =>
      match ← scanEndOfLine (byteLength keyword.toList) kind with
      | none => return false
      | some token =>
          update (·.pushToken token)
          return true

/-- Whether a text starts with the keyword, and one of the given characters or nothing follows. -/
def opensWith (keyword : String) (stops text : List Char) : Reading Bool := do
  match afterKeyword? keyword text with
  | none => return false
  | some _ =>
      match ← sliceFrom text (byteLength keyword.toList) with
      | [] => return true
      | next :: _ => return stops.contains next

/-- A newline and the blanks up to the next newline. -/
def blankLine : Reading Bool := do
  match ← unread with
  | '\n' :: behind =>
      let blanks ← leading isIndentation behind
      match ← sliceFrom behind blanks with
      | '\n' :: _ =>
          consume (1 + blanks)
          update (·.nextLine)
          return true
      | _ => return false
  | _ => return false

/-- The end of the text closes all levels. -/
def endOfInput : Reading Bool := do
  match ← unread with
  | [] =>
      let place ← here
      if place.interpolated then
        fail .unclosedInterpolation
      else
        update fun place =>
          let closed := place.levels.foldl (fun closed _ => closed.pushHere .outdent) place
          { closed.pushHere .eos with levels := [], ended := true }
        return true
  | _ => return false

/-- The bracket that closes the interpolated tag being read. -/
def endInterpolation : Reading Bool := do
  let place ← here
  match place.interpolated, ← unread with
  | true, ']' :: _ =>
      consume 1
      update fun place => { place with ended := true }
      return true
  | _, _ => return false

/-- A doctype takes the rest of its line. -/
def doctype : Reading Bool := do
  let text ← unread
  if ← opensWith "doctype" [' ', '\n'] text then
    let line := firstLine text
    let value ← sliceFrom line (byteLength "doctype".toList)
    emit (.doctype (String.ofList (trim value))) (byteLength line)
    return true
  else
    return false

/-- The keyword for the default content of a block. -/
def defaultKeyword : Reading Bool := do
  if ← keywordLine "default" .default then
    return true
  else
    let text ← unread
    if atWordBoundary "default" text then fail .defaultWithExpression else return false

/-- The length of a keyword and at least one space. -/
def keywordSpaces (keyword : String) (text : List Char) : Reading (Option Nat) := do
  match afterKeyword? keyword text with
  | none => return none
  | some behind =>
      let spaces ← leading (· == ' ') behind
      return if spaces = 0 then none else some (byteLength keyword.toList + spaces)

/-- The length of the word `block` in front of a keyword, if it stands there. -/
def blockPrefix (keyword : String) (afterBlock : Bool) (text : List Char) : Reading Nat := do
  if afterBlock then
    match ← keywordSpaces "block" text with
    | none => return 0
    | some length =>
        let behind ← sliceFrom text length
        match ← keywordSpaces keyword behind with
        | none => return 0
        | some _ => return length
  else
    return 0

/-- The length of what introduces a named block. -/
def blockHead (keyword : String) (afterBlock : Bool) (text : List Char) :
    Reading (Option Nat) := do
  let first ← blockPrefix keyword afterBlock text
  let behind ← sliceFrom text first
  match ← keywordSpaces keyword behind with
  | none => return none
  | some length => return some (first + length)

/-- The byte offset of a comment on a line. -/
def findComment? : List Char → Option Nat
  | '/' :: '/' :: _ => some 0
  | character :: text => (findComment? text).map (character.utf8Size + ·)
  | [] => none

/-- The label of a named block, which begins behind `head` bytes, and where the part of the line
that belongs to it ends. -/
def blockLabel (text : List Char) (head : Nat) : Reading (List Char × Nat) := do
  let behind ← sliceFrom text head
  let stop := lineEnd text head behind
  let line ← slice text head stop
  match findComment? line with
  | some offset =>
      let label ← sliceTo line offset
      return (label, head + offset)
  | none => return (line, stop)

/-- A named block. -/
def namedBlock (keyword : String) (afterBlock : Bool) (mode : BlockMode) : Reading Bool := do
  let text ← unread
  match ← blockHead keyword afterBlock text with
  | none => return false
  | some head =>
      let (label, consumed) ← blockLabel text head
      let name := trim label
      if name.isEmpty then
        return false
      else
        let matched ← sliceTo text consumed
        let significant := dropEndWhile isSeparator matched
        let trailing ← sliceFrom matched (byteLength significant)
        let start ← here
        update fun place => (place.right significant.length).push
          (.namedBlock (String.ofList name) mode) start.position
        consume consumed
        update (·.right trailing.length)
        return true

/-- The path behind `include` or `extends`. -/
def path : Reading Bool := do
  match ← unread with
  | ' ' :: behind =>
      let line := firstLine behind
      if line.isEmpty then
        return false
      else
        let value := trim line
        match ← scanEndOfLine (1 + byteLength line) (.path (String.ofList value)) with
        | none => return false
        | some token =>
            if value.isEmpty then
              return false
            else
              update (·.pushToken token)
              return true
  | _ => return false

/-- Announce a template that this one extends. -/
def announce (keyword : String) : Reading Bool := do
  emit .inheritance (byteLength keyword.toList)
  if ← path then
    return true
  else
    fail .noExtendsPath

/-- A template extends another. -/
def inheritance : Reading Bool := do
  let text ← unread
  if ← opensWith "extends" [' ', '\n'] text then
    announce "extends"
  else if ← opensWith "extend" [' ', '\n'] text then
    announce "extend"
  else if atWordBoundary "extends" text || atWordBoundary "extend" text then
    fail .malformedExtends
  else
    return false

/-- Repeat a matcher as long as it matches, at most `budget` times. -/
def repeatMatcher (matcher : Reading Bool) : (budget : Nat) → Reading Unit
  | 0 => pure ()
  | budget + 1 => do
      if ← matcher then
        repeatMatcher matcher budget
      else
        pure ()

/-- A template includes a file. -/
def inclusion (filter : Reading Bool) : Reading Bool := do
  let text ← unread
  if ← opensWith "include" [':', ' ', '\n'] text then
    emit .inclusion (byteLength "include".toList)
    repeatMatcher filter text.length
    if ← path then
      return true
    else
      match ← unread with
      | [] | ' ' :: _ | '\n' :: _ => fail .noIncludePath
      | _ => failUnexpected
  else if atWordBoundary "include" text then
    fail .malformedInclude
  else
    return false

/-- The parameters of a mixin on the line behind its name, and where they end there. -/
def parameters (line : List Char) : Reading (Option (List Char × Nat)) := do
  let spaces ← leading (· == ' ') line
  match ← sliceFrom line spaces with
  | '(' :: _ =>
      match findLast? ')' line with
      | none => return none
      | some close =>
          if spaces < close then
            let inside ← slice line (spaces + 1) close
            return some (inside, close + 1)
          else
            return none
  | _ => return none

/-- The declaration of a mixin. -/
def mixin : Reading Bool := do
  let text ← unread
  match ← keywordSpaces "mixin" text with
  | none => return false
  | some head =>
      let behind ← sliceFrom text head
      let width := nameLength behind
      if width = 0 then
        return false
      else
        let name ← slice text head (head + width)
        let line := firstLine (← sliceFrom text (head + width))
        let found ← parameters line
        let length := head + width + (found.map Prod.snd).getD 0
        let trailing ← leading (· == ' ') (← sliceFrom text length)
        emit (.mixin (String.ofList name) (found.map fun found => String.ofList found.1))
          (length + trailing)
        return true

/-! ### Rules for keywords -/

theorem mirrors_keywordLine (keyword : String) (kind : TokenKind) :
    Mirrors (keywordLine keyword kind) (SimpleRule.run (Rule.keywordLine keyword kind)) := by
  intro front scanner
  refine .unread ?_
  cases found : afterKeyword? keyword scanner.unread with
  | none => exact .declined (by simp [Rule.keywordLine, found])
  | some behind =>
      refine .scanEndOfLine (after?_eq_some_iff.mp found) rfl (fun token after front ended => ?_)
        fun noEnd => ?_
      · exact .update (fun _ => rfl) (.matched (by simp [Rule.keywordLine, found, ended]))
      · exact .declined (by simp [Rule.keywordLine, found, noEnd])

/-- A look at the start of a text always finds the slice that it asks for. -/
theorem opensWith_eq (keyword : String) (stops text : List Char) :
    opensWith keyword stops text = pure (Rule.opensWith keyword stops text) := by
  unfold opensWith Rule.opensWith
  cases found : afterKeyword? keyword text with
  | none => rfl
  | some behind =>
      dsimp only
      rw [sliceFrom_eq (after?_eq_some_iff.mp found) rfl, pure_bind]
      cases behind <;> rfl

theorem mirrors_blankLine : Mirrors blankLine (SimpleRule.run Rule.blankLine) := by
  intro front scanner
  refine .unread ?_
  split
  · next behind unread_eq =>
      have parts := List.takeWhile_append_dropWhile (p := isIndentation) (l := behind)
      refine .of_eq (leading_eq _ _) (.of_eq (sliceFrom_eq parts.symm rfl) ?_)
      split
      · next others trimmed =>
          have cut : scanner.unread = ('\n' :: behind.takeWhile isIndentation) ++
              '\n' :: others := by rw [unread_eq, List.cons_append, ← trimmed, parts]
          refine .consume cut rfl (.update (fun _ => rfl) (.matched ?_))
          simp only [Rule.blankLine, unread_eq, trimmed]
          rfl
      · next noNewline =>
          refine .declined ?_
          simp only [Rule.blankLine, unread_eq]
  · next noNewline =>
      refine .declined ?_
      unfold Rule.blankLine
      split
      · next behind unread_eq => exact absurd unread_eq (noNewline behind)
      · rfl

theorem mirrors_endInterpolation :
    Mirrors endInterpolation (SimpleRule.run Rule.endInterpolation) := by
  intro front scanner
  refine .here (.unread ?_)
  change Follows (match scanner.interpolated, scanner.unread with
    | true, ']' :: _ => _
    | _, _ => _) _ _ _
  split
  · next rest inside unread_eq =>
      have cut : scanner.unread = [']'] ++ rest := unread_eq
      refine .consume cut rfl (.update (fun _ => rfl) (.matched ?_))
      simp only [Rule.endInterpolation, inside, unread_eq]
  · next other =>
      refine .declined ?_
      unfold Rule.endInterpolation
      split
      · next rest inside unread_eq => exact absurd unread_eq (other rest inside)
      · rfl

theorem mirrors_endOfInput : Mirrors endOfInput (CheckedRule.run Rule.endOfInput) := by
  intro front scanner
  refine .unread ?_
  split
  · next unread_eq =>
      refine .here ?_
      split
      · next inside =>
          have inside : scanner.interpolated = true := inside
          have failed : Rule.endOfInput scanner =
              .error (scanner.fault .unclosedInterpolation) := by
            simp [Rule.endOfInput, unread_eq, inside]
          exact .checkedFailed failed rfl rfl
      · next outside =>
          have outside : scanner.interpolated = false := Bool.eq_false_iff.mpr outside
          refine .update (fun text => ?_)
            (.checkedMatched (by simp [Rule.endOfInput, unread_eq, outside]))
          dsimp only
          rw [@foldl_unread _ (·.pushHere .outdent) fun _ _ => rfl]
          rfl
  · next more =>
      refine .checkedDeclined ?_
      unfold Rule.endOfInput
      rw [if_neg]
      rwa [List.isEmpty_iff]

theorem mirrors_doctype : Mirrors doctype (SimpleRule.run Rule.doctype) := by
  intro front scanner
  refine .unread (.of_eq (opensWith_eq _ _ _) ?_)
  split
  · next opens =>
      rcases Rule.exists_append_of_opensWith opens with ⟨rest, unread_eq⟩
      have line_eq : firstLine scanner.unread = "doctype".toList ++ firstLine rest := by
        rw [unread_eq]
        exact firstLine_append_of_oneLine (by decide) rest
      refine .of_eq (sliceFrom_eq line_eq rfl)
        (.emit firstLine_append_drop.symm rfl (.matched ?_))
      simp only [Rule.doctype, opens, if_true, line_eq]
      rfl
  · next closed => exact .declined (by simp [Rule.doctype, closed])

theorem mirrors_defaultKeyword : Mirrors defaultKeyword (CheckedRule.run Rule.defaultKeyword) := by
  intro front scanner
  have keyword := mirrors_keywordLine "default" .default
  cases found : Rule.keywordLine "default" .default scanner with
  | some next =>
      refine .after_ok keyword (by rw [SimpleRule.run, found]) fun front => ?_
      exact .checkedMatched (by simp [Rule.defaultKeyword, found])
  | none =>
      refine .after_ok keyword (by rw [SimpleRule.run, found]) fun front => ?_
      refine .unread ?_
      split
      · next boundary =>
          have failed : Rule.defaultKeyword scanner =
              .error (scanner.fault .defaultWithExpression) := by
            simp [Rule.defaultKeyword, found, boundary]
          exact .checkedFailed failed rfl rfl
      · next noBoundary => exact .checkedDeclined (by simp [Rule.defaultKeyword, found, noBoundary])

/-- A keyword and spaces are found as a slice. -/
theorem keywordSpaces_eq (keyword : String) (text : List Char) :
    keywordSpaces keyword text =
      pure ((Rule.keywordSpaces? keyword text).map fun parts => byteLength parts.1) := by
  unfold keywordSpaces Rule.keywordSpaces?
  cases found : afterKeyword? keyword text with
  | none => rfl
  | some behind =>
      simp only [leading_eq, pure_bind, Option.bind_eq_bind, Option.bind_some]
      congr 1
      by_cases spaces : behind.takeWhile (· == ' ') = []
      · rw [spaces]
        rfl
      · rw [if_neg (byteLength_eq_zero_iff.not.mpr spaces),
          if_neg (List.isEmpty_iff.not.mpr spaces)]
        rw [Option.map_some, byteLength_append]

theorem eq_append_of_keywordSpaces? {keyword : String} {text matched rest : List Char}
    (found : Rule.keywordSpaces? keyword text = some (matched, rest)) : text = matched ++ rest := by
  simp only [Rule.keywordSpaces?, Option.bind_eq_bind, Option.bind_eq_some_iff] at found
  rcases found with ⟨behind, keywordFound, spaces⟩
  split at spaces
  · cases spaces
  · cases spaces
    rw [List.append_assoc, List.takeWhile_append_dropWhile]
    exact after?_eq_some_iff.mp keywordFound

theorem eq_append_of_blockHead? {keyword : String} {afterBlock : Bool}
    {text head rest : List Char}
    (found : Rule.blockHead? keyword afterBlock text = some (head, rest)) :
    text = head ++ rest := by
  rcases (Option.orElse_eq_some _ _ _).mp found with long | ⟨_, short⟩
  · split at long
    · simp only [Option.bind_eq_bind, Option.bind_eq_some_iff] at long
      rcases long with ⟨⟨front, behind⟩, blockFound, ⟨matched, others⟩, keywordFound, ⟨⟩⟩
      rw [eq_append_of_keywordSpaces? blockFound, List.append_assoc]
      exact congrArg (front ++ ·) (eq_append_of_keywordSpaces? keywordFound)
    · cases long
  · exact eq_append_of_keywordSpaces? short

/-- What introduces a named block is found as a slice, perhaps in two parts. -/
theorem blockHead_eq (keyword : String) (afterBlock : Bool) (text : List Char) :
    blockHead keyword afterBlock text =
      pure ((Rule.blockHead? keyword afterBlock text).map fun parts => byteLength parts.1) := by
  have short (first : Reading Nat) (zero : first = pure 0) (noLong : Rule.blockHead? keyword
      afterBlock text = Rule.keywordSpaces? keyword text) : (do
        let first ← first
        let behind ← sliceFrom text first
        match ← keywordSpaces keyword behind with
        | none => return none
        | some length => return some (first + length)) =
      pure ((Rule.blockHead? keyword afterBlock text).map fun parts => byteLength parts.1) := by
    have whole : sliceFrom text 0 = pure text := sliceFrom_eq (List.nil_append text).symm rfl
    rw [zero, pure_bind, whole, pure_bind, keywordSpaces_eq, pure_bind, noLong]
    cases Rule.keywordSpaces? keyword text with
    | none => rfl
    | some parts => simp
  unfold blockHead
  cases afterBlock with
  | false => exact short _ rfl (by simp [Rule.blockHead?])
  | true =>
      cases blockFound : Rule.keywordSpaces? "block" text with
      | none =>
          refine short _ ?_ (by simp [Rule.blockHead?, blockFound])
          simp [blockPrefix, keywordSpaces_eq, blockFound]
      | some parts =>
          rcases parts with ⟨front, behind⟩
          have cut := eq_append_of_keywordSpaces? blockFound
          cases keywordFound : Rule.keywordSpaces? keyword behind with
          | none =>
              refine short _ ?_ (by simp [Rule.blockHead?, blockFound, keywordFound])
              simp [blockPrefix, keywordSpaces_eq, blockFound, sliceFrom_eq cut rfl, keywordFound]
          | some parts =>
              simp [blockPrefix, keywordSpaces_eq, blockFound, sliceFrom_eq cut rfl, keywordFound,
                Rule.blockHead?, byteLength_append]

theorem findComment?_eq (line : List Char) :
    (findComment? line).getD (byteLength line) = byteLength (Rule.beforeComment line) := by
  fun_induction findComment? line with
  | case1 => rfl
  | case2 character text noComment ih =>
      have same :
          Rule.beforeComment (character :: text) = character :: Rule.beforeComment text := by
        rw [Rule.beforeComment]
        exact noComment
      rw [same, byteLength, byteLength, ← ih]
      cases findComment? text <;> rfl
  | case3 => rfl

/-- The label of a named block is a slice of the text. -/
theorem blockLabel_eq {text head rest : List Char} (cut : text = head ++ rest) :
    blockLabel text (byteLength head) =
      pure (Rule.beforeComment (firstLine rest),
        byteLength head + byteLength (Rule.beforeComment (firstLine rest))) := by
  have whole : text = head ++ firstLine rest ++ rest.drop (firstLine rest).length := by
    rw [List.append_assoc, firstLine_append_drop, cut]
  have found := findComment?_eq (firstLine rest)
  unfold blockLabel
  rw [sliceFrom_eq cut rfl, pure_bind, lineEnd_eq cut rfl]
  dsimp only
  rw [slice_eq whole rfl rfl, pure_bind]
  cases comment : findComment? (firstLine rest) with
  | none =>
      rw [comment] at found
      have whole := eq_of_front (Rule.isPrefix_beforeComment (firstLine rest)) found.symm
      rw [whole]
  | some offset =>
      rw [comment, Option.getD_some] at found
      rcases Rule.isPrefix_beforeComment (firstLine rest) with ⟨behind, line⟩
      dsimp only
      rw [sliceTo_eq line.symm found.symm, pure_bind, found]

/-- Blanks at the end of a longer text are those at the end of its last part, unless that is
blank. -/
theorem dropEndWhile_append {condition : Char → Bool} {text : List Char} (front : List Char)
    (some : dropEndWhile condition text ≠ []) :
    dropEndWhile condition (front ++ text) = front ++ dropEndWhile condition text := by
  unfold dropEndWhile at some ⊢
  rw [Ne, List.reverse_eq_nil_iff] at some
  rw [List.reverse_append, List.dropWhile_append, if_neg (List.isEmpty_iff.not.mpr some),
    List.reverse_append, List.reverse_reverse]

/-- Nothing is left of a text of separators alone. -/
theorem trim_of_separators {text : List Char} (blank : dropEndWhile isSeparator text = []) :
    trim text = [] := by
  rw [dropEndWhile, List.reverse_eq_nil_iff, List.dropWhile_eq_nil_iff] at blank
  have white : text.dropWhile isWhitespace = [] := by
    rw [List.dropWhile_eq_nil_iff]
    intro character inside
    have separator := blank character (List.mem_reverse.mpr inside)
    simp only [isSeparator, Bool.or_eq_true, beq_iff_eq] at separator
    rcases separator with (rfl | rfl) | rfl
    all_goals decide
  rw [trim, trimStart, white]
  rfl

theorem mirrors_namedBlock (keyword : String) (afterBlock : Bool) (mode : BlockMode) :
    Mirrors (namedBlock keyword afterBlock mode)
      (SimpleRule.run (Rule.namedBlock keyword afterBlock mode)) := by
  intro front scanner
  refine .unread (.of_eq (blockHead_eq _ _ _) ?_)
  cases found : Rule.blockHead? keyword afterBlock scanner.unread with
  | none => exact .declined (by simp [Rule.namedBlock, found])
  | some parts =>
      rcases parts with ⟨head, rest⟩
      have cut := eq_append_of_blockHead? found
      refine .of_eq (blockLabel_eq cut) ?_
      dsimp only
      split
      · next empty =>
          refine .declined ?_
          simp only [Rule.namedBlock, found, Option.bind_eq_bind, Option.bind_some, empty, if_true]
      · next named =>
          generalize label_eq : Rule.beforeComment (firstLine rest) = label at named ⊢
          have isPrefix : label <+: rest :=
            label_eq ▸ (Rule.isPrefix_beforeComment _).trans (List.takeWhile_prefix _)
          have whole : scanner.unread = head ++ label ++ rest.drop label.length := by
            rw [cut, List.append_assoc, List.prefix_iff_eq_append.mp isPrefix]
          have some : dropEndWhile isSeparator label ≠ [] := fun blank =>
            named (List.isEmpty_iff.mpr (trim_of_separators blank))
          have significant := dropEndWhile_append head some
          rcases isPrefix_dropEndWhile isSeparator label with ⟨trailing, parts⟩
          have split : head ++ label = dropEndWhile isSeparator (head ++ label) ++ trailing := by
            rw [significant, List.append_assoc, parts]
          have trailing_length : trailing.length =
              label.length - (dropEndWhile isSeparator label).length := by
            have := congrArg List.length parts
            rw [List.length_append] at this
            omega
          refine .of_eq (sliceTo_eq whole (byteLength_append _ _)) ?_
          refine .of_eq (sliceFrom_eq split rfl) (.here (.update (fun _ => rfl) ?_))
          refine .consume whole (byteLength_append _ _) (.update (fun _ => rfl) (.matched ?_))
          simp only [Rule.namedBlock, found, Option.bind_eq_bind, Option.bind_some, label_eq, named,
            significant, List.length_append, trailing_length]
          rfl

theorem mirrors_path : Mirrors path Rule.path := by
  intro front scanner
  refine .unread ?_
  split
  · next behind unread_eq =>
      have cut : scanner.unread = (' ' :: firstLine behind) ++
          behind.drop (firstLine behind).length := by
        rw [unread_eq, List.cons_append, firstLine_append_drop]
      dsimp only
      split
      · next empty => exact .done (by simp only [Rule.path, unread_eq, empty, if_true])
      · next some =>
          refine .scanEndOfLine cut rfl (fun token after front ended => ?_) fun noEnd => ?_
          · dsimp only
            split
            · next blank => exact .done (by simp [Rule.path, unread_eq, some, ended, blank])
            · next named =>
                refine .update (fun _ => rfl) (.done ?_)
                simp [Rule.path, unread_eq, some, ended, named]
          · exact .done (by simp [Rule.path, unread_eq, some, noEnd])
  · next noSpace =>
      refine .done ?_
      unfold Rule.path
      split
      · next behind unread_eq => exact absurd unread_eq (noSpace behind)
      · rfl

theorem mirrors_inheritance : Mirrors inheritance (Rule.inheritance Rule.path) := by
  intro front scanner
  refine .unread (.of_eq (opensWith_eq _ _ _) ?_)
  unfold Rule.inheritance
  extract_lets announces
  have announced (keyword : String) (stops : List Char)
      (opens : Rule.opensWith keyword stops scanner.unread = true) :
      Follows (announce keyword) (.behind front scanner) (announces keyword) scanner := by
    rcases Rule.exists_append_of_opensWith opens with ⟨rest, cut⟩
    refine .emit cut rfl (.modify ?_)
    rw [String.length_toList]
    refine .bind (mirrors_path _ _) fun matched front after _ => ?_
    cases matched with
    | true => exact .pure
    | false => exact .fail rfl rfl rfl
  refine .get ?_
  split
  · next opens => exact announced _ _ opens
  · refine .of_eq (opensWith_eq _ _ _) ?_
    split
    · next opens => exact announced _ _ opens
    · split
      · exact .fail rfl rfl rfl
      · exact .pure

theorem mirrors_repeatMatcher {matcher : Reading Bool} {rule : Scanning Bool}
    (mirrors : Mirrors matcher rule) (budget : Nat) :
    Mirrors (repeatMatcher matcher budget) (repeatRule rule budget) := by
  induction budget with
  | zero => exact fun front scanner => .pure
  | succ budget ih =>
      intro front scanner
      refine .bind (mirrors front scanner) fun matched front after _ => ?_
      cases matched with
      | true => exact ih front after
      | false => exact .pure

theorem mirrors_inclusion {filter : Reading Bool} {filterRule : Scanning Bool}
    (mirrors : Mirrors filter filterRule) :
    Mirrors (inclusion filter) (Rule.inclusion filterRule Rule.path) := by
  intro front scanner
  refine .unread (.of_eq (opensWith_eq _ _ _) (.get ?_))
  split
  · next opens =>
      rcases Rule.exists_append_of_opensWith opens with ⟨rest, cut⟩
      refine .emit cut rfl (.set ?_)
      refine .bind (mirrors_repeatMatcher mirrors _ _ _) fun _ front after _ => ?_
      refine .bind (mirrors_path _ _) fun matched front after _ => ?_
      cases matched with
      | true => exact .pure
      | false =>
          refine .unread ?_
          split
          · next nothing =>
              refine .get ?_
              rw [nothing]
              exact .fail rfl rfl rfl
          · next space =>
              refine .get ?_
              rw [space]
              exact .fail rfl rfl rfl
          · next newline =>
              refine .get ?_
              rw [newline]
              exact .fail rfl rfl rfl
          · next noEnd noSpace noNewline =>
              refine .unread (.get ?_)
              split
              · next nothing => exact absurd nothing noEnd
              · next space => exact absurd space (noSpace _)
              · next newline => exact absurd newline (noNewline _)
              · exact .fail rfl rfl rfl
  · split
    · exact .fail rfl rfl rfl
    · exact .pure

theorem splitLast?_append_of_not_mem {separator : Char} {front : List Char}
    (noSeparator : separator ∉ front) (text : List Char) :
    splitLast? separator (front ++ text) =
      (splitLast? separator text).map fun parts => (front ++ parts.1, parts.2) := by
  induction front with
  | nil => simp
  | cons character front ih =>
      rw [List.mem_cons, not_or] at noSeparator
      rw [List.cons_append, splitLast?, ih noSeparator.2]
      cases splitLast? separator text with
      | none => simp [Ne.symm noSeparator.1]
      | some parts => rfl

/-- The parameters between brackets behind the name of a mixin. -/
def parameters? (line : List Char) : Option (List Char) :=
  match line.dropWhile (· == ' ') with
  | '(' :: inside => (splitLast? ')' inside).map Prod.fst
  | _ => none

/-- The parameters are a slice of the line, and the line begins with their bracket. -/
theorem parameters_cases (line : List Char) :
    (parameters line = pure none ∧ parameters? line = none) ∨
      ∃ bracket inside, parameters line = pure (some (inside, byteLength bracket)) ∧
        parameters? line = some inside ∧ bracket <+: line ∧
        bracket.length = (line.takeWhile (· == ' ')).length + inside.length + 2 := by
  have parts := List.takeWhile_append_dropWhile (p := (· == ' ')) (l := line)
  unfold parameters parameters?
  rw [leading_eq, pure_bind, sliceFrom_eq parts.symm rfl, pure_bind]
  generalize spaces_eq : line.takeWhile (· == ' ') = spaces at parts ⊢
  generalize line.dropWhile (· == ' ') = behind at parts ⊢
  split
  · next inside =>
      have noBracket : ')' ∉ spaces ++ ['('] := by
        rw [List.mem_append, not_or, ← spaces_eq]
        exact ⟨fun bracket => absurd (List.mem_takeWhile_imp bracket) (by decide), by decide⟩
      have line_eq : line = (spaces ++ ['(']) ++ inside := by
        rw [← parts, List.append_assoc]
        rfl
      have found := splitLast?_append_of_not_mem noBracket inside
      rw [← line_eq] at found
      rw [findLast?_eq, found]
      cases split : splitLast? ')' inside with
      | none => exact .inl ⟨rfl, rfl⟩
      | some cut =>
          rcases cut with ⟨inside, back⟩
          have inside_eq := eq_append_of_splitLast? split
          have whole : line = (spaces ++ ['(']) ++ inside ++ ')' :: back := by
            rw [line_eq, inside_eq, List.append_assoc _ inside]
          have opening : byteLength (spaces ++ ['(']) = byteLength spaces + 1 :=
            byteLength_append _ _
          refine .inr ⟨spaces ++ '(' :: inside ++ [')'], inside, ?_, rfl, ⟨back, ?_⟩, ?_⟩
          · dsimp only [Option.map_some]
            have bracket : byteLength (spaces ++ '(' :: inside ++ [')']) =
                byteLength spaces + 1 + byteLength inside + 1 := by
              have closing : byteLength [')'] = 1 := rfl
              rw [← List.singleton_append, ← List.append_assoc, byteLength_append,
                byteLength_append, opening, closing]
            rw [byteLength_append, opening, if_pos (by omega), ← opening, slice_eq whole rfl rfl,
              pure_bind, opening, bracket]
          · rw [whole]
            simp
          · simp
            omega
  · exact .inl ⟨rfl, rfl⟩

/-- The length of a bracket with parameters, and of the spaces in front. -/
def bracketLength (rest : List Char) : Option (List Char) → Nat
  | some inside => (rest.takeWhile (· == ' ')).length + inside.length + 2
  | none => 0

theorem mixin_eq (scanner : Scanner) :
    Rule.mixin scanner =
      (Rule.keywordSpaces? "mixin" scanner.unread).bind fun parts =>
        let name := parts.2.takeWhile isWordOrDash
        let rest := parts.2.drop name.length
        let inside := parameters? (firstLine rest)
        let bracketed := bracketLength rest inside
        let trailing := (rest.drop bracketed).takeWhile (· == ' ')
        if name.isEmpty then none
        else some (scanner.emit (.mixin (String.ofList name) (inside.map String.ofList))
          (parts.1.length + name.length + bracketed + trailing.length)) :=
  rfl

/-- The declaration of a mixin takes its head, its name, its bracket and the spaces behind. -/
theorem mixin_eq_some {scanner : Scanner} {head name bracket rest : List Char}
    {inside : Option (List Char)} (found : Rule.keywordSpaces? "mixin" scanner.unread =
      some (head, name ++ (bracket ++ rest))) (named : name ≠ [])
    (name_eq : (name ++ (bracket ++ rest)).takeWhile isWordOrDash = name)
    (inside_eq : parameters? (firstLine (bracket ++ rest)) = inside)
    (bracket_length : bracketLength (bracket ++ rest) inside = bracket.length) :
    Rule.mixin scanner = some (scanner.emit
      (.mixin (String.ofList name) (inside.map String.ofList))
      (head ++ name ++ bracket ++ rest.takeWhile (· == ' ')).length) := by
  rw [mixin_eq, found, Option.bind_some]
  simp only [name_eq, List.isEmpty_iff, named, if_false, List.drop_left, inside_eq,
    bracket_length, List.length_append]

theorem mirrors_mixin : Mirrors mixin (SimpleRule.run Rule.mixin) := by
  intro front scanner
  refine .unread (.of_eq (keywordSpaces_eq _ _) ?_)
  cases found : Rule.keywordSpaces? "mixin" scanner.unread with
  | none => exact .declined (by simp [Rule.mixin, found])
  | some parts =>
      rcases parts with ⟨head, behind⟩
      have cut := eq_append_of_keywordSpaces? found
      refine .of_eq (sliceFrom_eq cut rfl) ?_
      have parts := List.takeWhile_append_dropWhile (p := isWordOrDash) (l := behind)
      rw [nameLength_eq]
      generalize name_eq : behind.takeWhile isWordOrDash = name at parts ⊢
      generalize behind.dropWhile isWordOrDash = rest at parts
      subst parts
      dsimp only
      split
      · next noName =>
          obtain rfl := byteLength_eq_zero_iff.mp noName
          exact .declined (by simp only [Rule.mixin, found, Option.bind_eq_bind, Option.bind_some,
            name_eq, List.isEmpty_nil, if_true])
      · next named =>
          have named := byteLength_eq_zero_iff.not.mp named
          have whole : scanner.unread = head ++ name ++ rest := by
            rw [cut, List.append_assoc]
          have before : byteLength (head ++ name) = byteLength head + byteLength name :=
            byteLength_append _ _
          refine .of_eq (slice_eq whole rfl rfl) (.of_eq (sliceFrom_eq whole before) ?_)
          rcases parameters_cases (firstLine rest) with ⟨none, noInside⟩ |
            ⟨bracket, inside, some, someInside, isPrefix, bracket_length⟩
          · refine .of_eq none ?_
            have again : scanner.unread = head ++ name ++ rest.takeWhile (· == ' ') ++
                rest.dropWhile (· == ' ') := by
              rw [List.append_assoc, List.takeWhile_append_dropWhile, whole]
            refine .of_eq (sliceFrom_eq whole before) (.of_eq (leading_eq _ _) ?_)
            refine .emit again ?_ (.matched ?_)
            · simp only [byteLength_append, Option.map_none, Option.getD_none, Nat.add_zero]
            · rw [← List.nil_append rest] at found name_eq noInside
              have matched := mixin_eq_some found named name_eq noInside rfl
              rwa [List.append_nil] at matched
          · refine .of_eq some ?_
            have bracketFront : bracket <+: rest :=
              isPrefix.trans (List.takeWhile_prefix _)
            rcases bracketFront with ⟨behind, rfl⟩
            have again : scanner.unread = head ++ name ++ bracket ++ behind := by
              rw [whole, List.append_assoc (head ++ name)]
            have last : scanner.unread = head ++ name ++ bracket ++ behind.takeWhile (· == ' ') ++
                behind.dropWhile (· == ' ') := by
              rw [List.append_assoc _ (behind.takeWhile _), List.takeWhile_append_dropWhile, again]
            have bytes : byteLength (head ++ name ++ bracket) =
                byteLength head + byteLength name + byteLength bracket := by
              rw [byteLength_append, before]
            refine .of_eq (sliceFrom_eq again bytes) (.of_eq (leading_eq _ _) ?_)
            refine .emit last (by rw [byteLength_append, bytes]; rfl) (.matched ?_)
            refine mixin_eq_some found named name_eq someInside ?_
            rw [bracketLength, bracket_length, takeWhile_firstLine rfl]

end Matcher

end Offside.Slicing
