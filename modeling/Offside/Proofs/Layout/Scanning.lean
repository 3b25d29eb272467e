import Offside.Proofs.Layout.Element
import Offside.Proofs.Layout.Rules

/-!
# The tokens of a laid out forest

The scanner reads the lines of a layout one by one. Behind the line of an element some levels may be
open that the next line closes; the tokens for these are still to come. With them, the tokens found
so far spell the elements that were read.
-/

namespace Offside

open Computing Relation Text

/-- What may follow a word: a space, a newline, the bracket that closes an interpolated tag, or
nothing at all. -/
def EndsWord (text : List Char) : Prop :=
  ∀ next ∈ text.head?, next = ' ' ∨ next = '\n' ∨ next = ']'

theorem EndsWord.noWord {next : Char} {rest : List Char} (ends : EndsWord (next :: rest)) :
    isWord next = false := by
  rcases ends next rfl with rfl | rfl | rfl <;> decide

theorem dropEndWhile_eq_self {condition : Char → Bool} {text : List Char}
    (fails : ∀ character ∈ text, condition character = false) :
    dropEndWhile condition text = text := by
  unfold dropEndWhile
  cases reversed : text.reverse with
  | nil => simpa using reversed.symm
  | cons last others =>
      have lastFails := fails last (List.mem_reverse.mp (by simp [reversed]))
      rw [List.dropWhile_cons_of_neg (by simp [lastFails]), ← reversed, List.reverse_reverse]

/-- How interpolations begin. -/
def interpolationMarkers : List (List Char) :=
  [['#', '['], ['#', '\x7b'], ['!', '\x7b']]

theorem exists_infix_of_markerAt? {text rest : List Char} {marker : Marker}
    (found : markerAt? text = some (marker, rest)) :
    ∃ opening ∈ interpolationMarkers, opening <:+: text := by
  unfold markerAt? at found
  split at found
  · exact ⟨['#', '['], by simp [interpolationMarkers], ⟨['\\'], _, rfl⟩⟩
  · exact ⟨['#', '\x7b'], by simp [interpolationMarkers], ⟨['\\'], _, rfl⟩⟩
  · exact ⟨['!', '\x7b'], by simp [interpolationMarkers], ⟨['\\'], _, rfl⟩⟩
  · exact ⟨['#', '['], by simp [interpolationMarkers], ⟨[], _, rfl⟩⟩
  · exact ⟨['#', '\x7b'], by simp [interpolationMarkers], ⟨[], _, rfl⟩⟩
  · exact ⟨['!', '\x7b'], by simp [interpolationMarkers], ⟨[], _, rfl⟩⟩
  · simp at found

theorem findMarker_eq_none {allowed : Bool} {text : List Char}
    (plain : ∀ opening ∈ interpolationMarkers, ¬opening <:+: text) :
    findMarker false allowed text = none := by
  induction text with
  | nil => rfl
  | cons character rest ih =>
      have plainRest : ∀ opening ∈ interpolationMarkers, ¬opening <:+: rest := by
        intro opening known inside
        exact plain opening known (inside.trans (List.suffix_cons character rest).isInfix)
      have noMarker : markerAt? (character :: rest) = none := by
        cases found : markerAt? (character :: rest) with
        | none => rfl
        | some marker =>
            rcases exists_infix_of_markerAt? found with ⟨opening, known, inside⟩
            exact absurd inside (plain opening known)
      simp [findMarker, noMarker, ih plainRest]

/-! ### Where no reserved word stands -/

theorem isWord_of_mem_reserved : ∀ word ∈ reservedWords,
    word.toList ≠ [] ∧ word.toList.all isWord = true := by
  decide

theorem passesWord_of_noWord {first : Char} {rest : List Char} (noWord : isWord first = false) :
    ∀ word ∈ reservedWords, PassesWord word (first :: rest) := by
  intro word reserved others found
  have chars := isWord_of_mem_reserved word reserved
  rw [afterKeyword?, after?_eq_some_iff] at found
  cases letters : word.toList with
  | nil => exact absurd letters chars.1
  | cons letter more =>
      simp only [letters, List.cons_append, List.cons.injEq] at found
      have isLetter := List.all_eq_true.mp chars.2 letter (by simp [letters])
      simp [← found.1, noWord] at isLetter

theorem passesWord_of_name (name : ElementName) {after : List Char} (ends : EndsWord after) :
    ∀ word ∈ reservedWords, PassesWord word (name.value.toList ++ after) := by
  intro word reserved rest found
  have different : name.value.toList ≠ word.toList := by
    intro same
    exact name.notReserved (String.toList_inj.mp same ▸ reserved)
  rw [afterKeyword?, after?_eq_some_iff] at found
  rcases List.append_eq_append_iff.mp found with ⟨more, longer, split⟩ | ⟨more, longer, split⟩
  · cases more with
    | nil => simp [longer] at different
    | cons letter more =>
        -- The word would go on behind the name.
        have chars := isWord_of_mem_reserved word reserved
        have isLetter := List.all_eq_true.mp chars.2 letter (by simp [longer])
        rw [split] at ends
        simp [ends.noWord] at isLetter
  · cases more with
    | nil => simp [longer] at different
    | cons letter more =>
        exact ⟨letter, more ++ after, split, name.isWord_of_mem (by simp [longer])⟩

/-! ### Steps -/

/-- What counts of a scanner that reads a layout: the unread text, the open levels, and the kinds of
the tokens found so far. -/
structure Scanner.Shows (scanner : Scanner) (unit : IndentUnit) (text : List Char)
    (levels : List Nat) (kinds : List TokenKind) : Prop where
  unread : scanner.unread = text
  levels : scanner.levels = levels
  kinds : scanner.found.reverse.map Token.kind = kinds
  unit : scanner.unit = none ∨ scanner.unit = some unit
  running : scanner.ended = false
  outside : scanner.interpolated = false

namespace Scanner.Shows

variable {scanner : Scanner} {unit : IndentUnit} {text : List Char} {levels : List Nat}
  {kinds : List TokenKind}

theorem push (shows : scanner.Shows unit text levels kinds) (kind : TokenKind)
    (start : Position) : (scanner.push kind start).Shows unit text levels (kinds ++ [kind]) where
  unread := shows.unread
  levels := shows.levels
  kinds := by simp [Scanner.push, ← shows.kinds]
  unit := shows.unit
  running := shows.running
  outside := shows.outside

theorem move (shows : scanner.Shows unit text levels kinds) (position : Position) :
    { scanner with position := position }.Shows unit text levels kinds :=
  ⟨shows.unread, shows.levels, shows.kinds, shows.unit, shows.running, shows.outside⟩

theorem drop (shows : scanner.Shows unit text levels kinds) (count : Nat) :
    (scanner.drop count).Shows unit (text.drop count) levels kinds where
  unread := by simp [Scanner.drop, shows.unread]
  levels := shows.levels
  kinds := shows.kinds
  unit := shows.unit
  running := shows.running
  outside := shows.outside

theorem setLevels (shows : scanner.Shows unit text levels kinds) (others : List Nat) :
    { scanner with levels := others }.Shows unit text others kinds :=
  ⟨shows.unread, rfl, shows.kinds, shows.unit, shows.running, shows.outside⟩

theorem setUnit (shows : scanner.Shows unit text levels kinds) :
    { scanner with unit := some unit }.Shows unit text levels kinds :=
  ⟨shows.unread, shows.levels, shows.kinds, .inr rfl, shows.running, shows.outside⟩

theorem note (shows : scanner.Shows unit text levels kinds) (event : Event) :
    (scanner.note event).Shows unit text levels kinds :=
  ⟨shows.unread, shows.levels, shows.kinds, shows.unit, shows.running, shows.outside⟩

theorem pushToken (shows : scanner.Shows unit text levels kinds) (token : Token) :
    (scanner.pushToken token).Shows unit text levels (kinds ++ [token.kind]) where
  unread := shows.unread
  levels := shows.levels
  kinds := by simp [Scanner.pushToken, ← shows.kinds]
  unit := shows.unit
  running := shows.running
  outside := shows.outside

theorem emit {front after : List Char} (shows : scanner.Shows unit (front ++ after) levels kinds)
    (kind : TokenKind) :
    (scanner.emit kind front.length).Shows unit after levels (kinds ++ [kind]) := by
  have read := shows.drop front.length
  rw [List.drop_left] at read
  exact (read.move (scanner.position.right (scanner.unread.take front.length).length)).push kind
    scanner.position

end Scanner.Shows

/-- Some steps lead from one text and its open levels to others, and find tokens of some kinds. -/
def Leads (unit : IndentUnit) (text : List Char) (levels : List Nat) (found : List TokenKind)
    (textAfter : List Char) (levelsAfter : List Nat) : Prop :=
  ∀ scanner kinds, scanner.Shows unit text levels kinds →
    ∃ next, ReflTransGen Scanner.StepsTo scanner next ∧
      next.Shows unit textAfter levelsAfter (kinds ++ found)

section

variable {unit : IndentUnit} {text middle after : List Char} {levels between outer : List Nat}
  {found others : List TokenKind}

theorem Leads.refl : Leads unit text levels [] text levels := by
  intro scanner kinds shows
  exact ⟨scanner, .refl, by simpa using shows⟩

theorem Leads.trans (first : Leads unit text levels found middle between)
    (second : Leads unit middle between others after outer) :
    Leads unit text levels (found ++ others) after outer := by
  intro scanner kinds shows
  rcases first scanner kinds shows with ⟨next, reaches, shown⟩
  rcases second next _ shown with ⟨last, reachesLast, shownLast⟩
  exact ⟨last, reaches.trans reachesLast, by simpa using shownLast⟩

/-- A rule that takes the text, when all rules before it pass. -/
theorem leads_of_rule {before : List Step} {step : Step}
    (order : ∃ rest, Step.order = before ++ step :: rest) (reads : after.length < text.length)
    (takes : ∀ scanner kinds, scanner.Shows unit text levels kinds →
      (∀ other ∈ before, other.Declines scanner) ∧
        ∃ next, (∀ inner, step.rule [] inner scanner = .ok true next) ∧
          next.Shows unit after outer (kinds ++ found)) :
    Leads unit text levels found after outer := by
  intro scanner kinds shows
  rcases order with ⟨rest, order⟩
  rcases takes scanner kinds shows with ⟨declines, next, matched, shown⟩
  refine ⟨next, .single ⟨shows.running, fun inner => ?_, fun _ => ?_⟩, shown⟩
  · rw [order]
    exact firstMatch_of_forall_declines declines (matched inner)
  · rwa [shown.unread, shows.unread]

/-- At a name the rule for tags takes the whole name, and no more. -/
theorem Rule.tag_eq_of_name {scanner : Scanner} (name : ElementName)
    (unread : scanner.unread = name.value.toList ++ after) (ends : EndsWord after) :
    Rule.tag scanner = some (scanner.emit (.tag name.value) name.value.toList.length) := by
  rcases name.exists_eq_cons with ⟨first, more, chars⟩
  have isWordFirst : isWord first = true := name.isWord_of_mem (by simp [chars])
  have cons : scanner.unread = first :: (more ++ after) := by simp [unread, chars]
  have run : scanner.unread.takeWhile (fun character =>
      isWordOrDash character || character == ':') = name.value.toList := by
    rw [unread, List.takeWhile_append_of_pos]
    · cases after with
      | nil => simp
      | cons next rest => rcases ends next rfl with rfl | rfl | rfl <;> simp <;> rfl
    · intro character mem
      simp [isWordOrDash, name.isWord_of_mem mem]
  -- A name has no dash and no colon, so nothing at its end is left for a later rule.
  have whole : dropEndWhile (fun character => character == '-' || character == ':')
      name.value.toList = name.value.toList := by
    apply dropEndWhile_eq_self
    intro character mem
    have isChar := name.isWord_of_mem mem
    simp [ne_of_isWord isChar (by decide : isWord '-' = false),
      ne_of_isWord isChar (by decide : isWord ':' = false)]
  unfold Rule.tag
  split
  · next found =>
      rcases List.cons.inj (cons.symm.trans found) with ⟨rfl, rfl⟩
      simp only [isWordFirst, run, whole, if_true, String.ofList_toList]
  · next found => simp [cons] at found

/-- At a name the rule for tags is the first that matches. -/
theorem firstMatch_name {scanner : Scanner} (name : ElementName)
    (unread : scanner.unread = name.value.toList ++ after) (ends : EndsWord after)
    (inner : Scanning Unit) :
    firstMatch [] inner Step.order scanner =
      .ok () (scanner.emit (.tag name.value) name.value.toList.length) := by
  rcases name.exists_eq_cons with ⟨first, more, chars⟩
  have isWordFirst : isWord first = true := name.isWord_of_mem (by simp [chars])
  have cons : scanner.unread = first :: (more ++ after) := by simp [unread, chars]
  have declines : ∀ step ∈ Step.beforeTag, step.Declines scanner := by
    have passes := passesWord_of_name name ends
    rw [chars] at passes
    exact declines_beforeTag cons
      (declines_endInterpolation_of_ne cons (ne_of_isWord isWordFirst (by decide)))
      (declines_of_sign rfl cons (ne_of_isWord isWordFirst (by decide))) passes
      (ne_of_isWord isWordFirst (by decide)) (ne_of_isWord isWordFirst (by decide))
  rcases Step.exists_order_eq_tag with ⟨rest, order⟩
  rw [order]
  apply firstMatch_of_forall_declines declines
  simp [Step.rule, SimpleRule.run, Rule.tag_eq_of_name name unread ends]

/-- The name of an element becomes a tag. -/
theorem leads_name (name : ElementName) (ends : EndsWord after) :
    Leads unit (name.value.toList ++ after) levels [.tag name.value] after levels := by
  intro scanner kinds shows
  have shown := shows.emit (.tag name.value)
  refine ⟨_, .single ⟨shows.running, firstMatch_name name shows.unread ends, fun _ => ?_⟩, shown⟩
  rcases name.exists_eq_cons with ⟨first, more, chars⟩
  calc (scanner.emit (.tag name.value) name.value.toList.length).unread.length
      = after.length := congrArg List.length shown.unread
    _ < scanner.unread.length := by
        rw [shows.unread, chars, List.length_append, List.length_cons]
        omega

theorem ElementText.exists_eq_cons (content : ElementText) :
    ∃ first rest, content.value.toList = first :: rest := by
  cases chars : content.value.toList with
  | nil => exact absurd (String.toList_eq_nil_iff.mp chars) content.nonempty
  | cons first rest => exact ⟨first, rest, rfl⟩

/-- What stands behind the text of a line: a newline, or nothing at all. -/
def EndsLine (text : List Char) : Prop :=
  ∀ next ∈ text.head?, next = '\n'

theorem EndsLine.endsWord (ends : EndsLine text) : EndsWord text :=
  fun next found => .inr (.inl (ends next found))

theorem firstLine_append {line : List Char} (oneLine : '\n' ∉ line) (ends : EndsLine after) :
    firstLine (line ++ after) = line := by
  rw [firstLine, List.takeWhile_append_of_pos]
  · cases after with
    | nil => simp
    | cons next rest => simp [ends next rfl]
  · intro character mem
    simpa using fun (same : character = '\n') => oneLine (same ▸ mem)

/-- Behind a space the rule for texts is the first that matches. -/
theorem firstMatch_text {scanner next : Scanner} {inner : Scanning Unit} {value : List Char}
    (unread : scanner.unread = ' ' :: value ++ after) (oneLine : '\n' ∉ value)
    (ends : EndsLine after) (someText : value ≠ [])
    (added : addRun inner false value ((scanner.drop (value.length + 1)).right 1) =
      .ok () next) :
    firstMatch [] inner Step.order scanner = .ok () next := by
  have cons : scanner.unread = ' ' :: (value ++ after) := unread
  have line : firstLine scanner.unread = ' ' :: value := by
    rw [unread]
    exact firstLine_append (by simp [oneLine]) ends
  have declines : ∀ step ∈ Step.beforeIndentation ++ [.indentation], step.Declines scanner := by
    have before := declines_beforeIndentation cons
      (declines_endInterpolation_of_ne cons (by decide)) (declines_of_sign rfl cons (by decide))
      (passesWord_of_noWord (by decide)) (by decide) (by decide)
    have newline : Step.indentation.Declines scanner := declines_of_sign rfl cons (by decide)
    exact List.forall_mem_append.mpr ⟨before, by simpa using newline⟩
  rcases Step.exists_order_eq_text with ⟨rest, order⟩
  rw [order]
  apply firstMatch_of_forall_declines declines
  cases value with
  | nil => exact absurd rfl someText
  | cons first more =>
      simp only [Step.rule, Rule.text, get_bind_eq, line]
      exact bind_of_ok added

/-- The text behind the name of an element becomes a text. -/
theorem leads_text (content : ElementText) (ends : EndsLine after) :
    Leads unit (' ' :: content.value.toList ++ after) levels [.text content.value] after
      levels := by
  intro scanner kinds shows
  rcases content.exists_eq_cons with ⟨first, more, chars⟩
  have added : ∀ inner, addRun inner false content.value.toList
      ((scanner.drop (content.value.toList.length + 1)).right 1) =
      .ok () (((scanner.drop (content.value.toList.length + 1)).right 1).pushText false
        content.value.toList 0) := by
    intro inner
    have noMarker : findMarker false scanner.markersAllowed content.value.toList = none :=
      findMarker_eq_none content.plain
    unfold addRun addText
    rw [get_bind_eq]
    simp only [Scanner.right, Scanner.drop, shows.outside, noMarker, List.nil_append]
    rfl
  have read := shows.drop (' ' :: content.value.toList).length
  rw [List.drop_left] at read
  have moved := (read.move (scanner.position.right 1)).move
    ((scanner.position.right 1).right (content.value.toList.length + 0))
  have shown := moved.push (.text content.value) (scanner.position.right 1)
  refine ⟨_, .single ⟨shows.running, fun inner => ?_, fun _ => ?_⟩, shown⟩
  · apply firstMatch_text shows.unread content.oneLine ends (by simp [chars])
    rw [added inner, Scanner.pushText, String.ofList_toList]
    rfl
  · rw [shown.unread, shows.unread, List.length_append, List.length_cons]
    omega

/-! ### Includes -/

theorem TemplatePath.exists_eq_cons (path : TemplatePath) :
    ∃ first rest, path.value.toList = first :: rest := by
  cases chars : path.value.toList with
  | nil => exact absurd path.isTemplate (by simp [Grammar.isTemplatePath, chars])
  | cons first rest => exact ⟨first, rest, rfl⟩

/-- A token that ends its line is taken up to the newline. -/
theorem Scanner.exists_endOfLine?_eq (scanner : Scanner) (matched : List Char) (kind : TokenKind)
    (ends : EndsLine after) :
    ∃ start stop, scanner.endOfLine? matched after kind =
      some (⟨kind, start, stop⟩, { scanner with unread := after, position := stop }) := by
  cases after with
  | nil => exact ⟨_, _, rfl⟩
  | cons next rest =>
      rcases ends next rfl with rfl
      exact ⟨_, _, rfl⟩

/-- The path behind a keyword becomes a path. -/
theorem exists_path_eq {scanner : Scanner} {kinds : List TokenKind} (path : TemplatePath)
    (ends : EndsLine after)
    (shows : scanner.Shows unit (' ' :: path.value.toList ++ after) levels kinds) :
    ∃ next, Rule.path scanner = .ok true next ∧
      next.Shows unit after levels (kinds ++ [.path path.value]) := by
  rcases path.exists_eq_cons with ⟨first, more, chars⟩
  have line : firstLine (path.value.toList ++ after) = path.value.toList :=
    firstLine_append path.oneLine ends
  have bare : trim path.value.toList = path.value.toList := by
    simpa [trimmed, ← String.toList_inj] using path.bare
  rcases scanner.exists_endOfLine?_eq (' ' :: path.value.toList) (.path path.value) ends
    with ⟨start, stop, matched⟩
  refine ⟨Scanner.pushToken { scanner with unread := after, position := stop }
    ⟨.path path.value, start, stop⟩, ?_, ?_⟩
  · have unread : scanner.unread = ' ' :: (path.value.toList ++ after) := shows.unread
    simp only [Rule.path, unread, line, bare, List.drop_left, String.ofList_toList, matched]
    simp [chars]
  · have read : Scanner.Shows { scanner with unread := after, position := stop } unit after levels
        kinds :=
      ⟨rfl, shows.levels, shows.kinds, shows.unit, shows.running, shows.outside⟩
    exact read.pushToken _

/-- The line of an include becomes a keyword and a path. -/
theorem leads_inclusion (path : TemplatePath) (ends : EndsLine after) :
    Leads unit (path.line ++ after) levels [.inclusion, .path path.value] after levels := by
  have split : path.line ++ after = "include".toList ++ (' ' :: path.value.toList ++ after) :=
    List.append_assoc _ _ _
  have reads : after.length < (path.line ++ after).length := by
    simp only [split, List.length_append, List.length_cons]
    omega
  refine leads_of_rule Step.exists_order_eq_inclusion reads ?_
  intro scanner kinds shows
  rw [split] at shows
  have keyword := shows.emit .inclusion
  rcases exists_path_eq path ends keyword with ⟨next, read, shown⟩
  refine ⟨declines_beforeInclusion shows.unread, next, fun inner => ?_, by simpa using shown⟩
  have opens : Rule.opensWith "include" [':', ' ', '\n'] scanner.unread = true := by
    rw [shows.unread]
    rfl
  have noFilter : repeatRule (includeFilterStep []) scanner.unread.length
      (scanner.emit .inclusion "include".length) =
      .ok () (scanner.emit .inclusion "include".length) := by
    have here : (scanner.emit .inclusion "include".length).unread =
        ' ' :: (path.value.toList ++ after) := keyword.unread
    have first : scanner.unread.length ≠ 0 := by simp [shows.unread]
    rcases Nat.exists_eq_succ_of_ne_zero first with ⟨budget, length⟩
    rw [length]
    have declines : includeFilterStep [] (scanner.emit .inclusion "include".length) =
        .ok false (scanner.emit .inclusion "include".length) := by
      simp only [includeFilterStep, consult, Rule.filter, get_bind_eq, here]
      rfl
    exact bind_of_ok declines
  simp only [Step.rule, Rule.inclusion, get_bind_eq, opens, if_true]
  exact (bind_of_ok rfl).trans ((bind_of_ok noFilter).trans (bind_of_ok read))

end

end Offside
