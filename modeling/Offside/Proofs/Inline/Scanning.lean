import Offside.Proofs.Inline.Marker
import Offside.Proofs.Layout.Tokens

/-!
# The tokens of a line with content

An interpolated tag is read by a scanner of its own, from its name to the bracket that closes it,
and the text behind the bracket goes back to the scanner around it. So the same is shown at every
depth: a scanner reads printed content up to the end of the line or to the closing bracket.
-/

namespace Offside

open Computing Text

/-- Some tokens stand for a text of a page. A text stands in front of each variable and each tag, be
it empty. -/
inductive Denotes (globals : List (String × String)) : List TokenKind → String → Prop where
  | nil : Denotes globals [] ""
  | text {value : String} : Denotes globals [.text value] value
  | code {value name bound page : String} {escaped : Bool} {kinds : List TokenKind}
      (found : globals.lookup name = some bound) (following : Denotes globals kinds page) :
      Denotes globals (.text value :: .code name true escaped :: kinds)
        (value ++ (Html.written escaped bound ++ page))
  | tag (value : String) {content page : String} {name : ElementName}
      {inside kinds : List TokenKind} (within : Denotes globals inside content)
      (following : Denotes globals kinds page) :
      Denotes globals (.text value :: .startInterpolation :: .tag name.value ::
          (inside ++ .endInterpolation :: kinds))
        (value ++ ("<" ++ name.value ++ ">" ++ content ++ "</" ++ name.value ++ ">" ++ page))

/-- Some tokens begin with a text, if there are any. -/
def TextFirst (kinds : List TokenKind) : Prop :=
  ∀ kind ∈ kinds.head?, ∃ value, kind = .text value

theorem Denotes.textFirst {globals : List (String × String)} {kinds : List TokenKind}
    {page : String} (denotes : Denotes globals kinds page) : TextFirst kinds := by
  cases denotes <;> simp [TextFirst]

/-- What stands behind some content: nothing, or the bracket that closes a tag and some text. -/
def contentEnd : Option (List Char) → List Char
  | none => []
  | some after => ']' :: after

namespace Scanner

/-- The scanner at the end of some content. Behind a closing bracket the text is unread again. -/
def endContent (scanner : Scanner) : Option (List Char) → Scanner
  | none => scanner
  | some after => { scanner with ended := true, unread := after ++ scanner.unread }

/-- A scanner reads content on a line or, when a text follows the closing bracket, in a tag. -/
structure InContent (scanner : Scanner) (inTag : Bool) (after : Option (List Char)) : Prop where
  place : after.isSome = inTag
  oneLine : ∀ text ∈ after, '\n' ∉ text
  interpolated : scanner.interpolated = inTag
  allowed : scanner.markersAllowed = true

theorem InContent.notMem_contentEnd {scanner : Scanner} {inTag : Bool}
    {after : Option (List Char)} (inContent : scanner.InContent inTag after) :
    '\n' ∉ contentEnd after := by
  cases after with
  | none => simp [contentEnd]
  | some text => simp [contentEnd, inContent.oneLine text rfl]

theorem InContent.of_collects {before after : Scanner} {kinds : List TokenKind} {inTag : Bool}
    {text : Option (List Char)} (inContent : before.InContent inTag text)
    (collects : Collects before kinds after) : after.InContent inTag text where
  place := inContent.place
  oneLine := inContent.oneLine
  interpolated := collects.interpolated.trans inContent.interpolated
  allowed := collects.allowed.trans inContent.allowed

end Scanner

namespace Inline

/-- Wherever some content is printed, a scanner finds tokens that stand for it. The layers are those
left for interpolated tags. -/
def AreRead (globals : List (String × String)) (inTag : Bool) (pieces : List Inline) : Prop :=
  ∀ {scanner : Scanner} {after : Option (List Char)} {layers budget : Nat} (held : List Char)
    (escaped : Nat), scanner.InContent inTag after → (printAll pieces).length ≤ layers →
    (printAll pieces ++ contentEnd after).length ≤ budget →
    ∃ next kinds, scanner.Collects kinds next ∧
      Denotes globals kinds (String.ofList held ++ htmlAll globals pieces) ∧
      addText (run [] layers) false (budget + 1) (printAll pieces ++ contentEnd after) held escaped
        scanner = .ok () (next.endContent after)

variable {globals : List (String × String)} {inTag : Bool} {content rest : List Inline}

theorem areRead_nil : AreRead globals inTag [] := by
  intro scanner after layers budget held escaped inContent _ _
  cases after with
  | none =>
      refine ⟨scanner.pushText false held escaped, _, scanner.collects_pushText held escaped, ?_,
        ?_⟩
      · simpa [htmlAll] using Denotes.text
      · simp only [addText, get_bind_eq, printAll, contentEnd, findMarker, List.append_nil]
        rfl
  | some after =>
      have inside : scanner.interpolated = true :=
        inContent.interpolated.trans inContent.place.symm
      have found : findMarker scanner.interpolated scanner.markersAllowed (']' :: after) =
          some ([], .close, after) := by
        simp [findMarker, inside]
      cases held with
      | nil =>
          refine ⟨scanner, [], .refl, by simpa [htmlAll] using Denotes.nil, ?_⟩
          simp only [addText, get_bind_eq, printAll, contentEnd, List.nil_append, found]
          rfl
      | cons first more =>
          refine ⟨scanner.pushText false (first :: more) escaped, _,
            scanner.collects_pushText (first :: more) escaped, ?_, ?_⟩
          · simpa [htmlAll] using Denotes.text
          · simp only [addText, get_bind_eq, printAll, contentEnd, List.nil_append, found,
              List.append_nil]
            rfl

/-- What follows a text does not go on with a marker that the text begins. -/
theorem head?_printAll_append (after : Option (List Char))
    (noText : ∀ next ∈ rest.head?, ∀ value, next ≠ .text value) :
    ∀ next ∈ (printAll rest ++ contentEnd after).head?, next ≠ '[' ∧ next ≠ '\x7b' := by
  cases rest with
  | nil => cases after <;> simp [printAll, contentEnd]
  | cons piece more =>
      cases piece with
      | text value => exact absurd rfl (noText _ rfl value)
      | code name escaped => cases escaped <;> simp [printAll_code]
      | tag name content => simp [printAll_tag]

theorem areRead_text {value : InlineText} (noBracket : inTag = true → ']' ∉ value.value.toList)
    (separate : ∀ next ∈ rest.head?, (∀ other, next ≠ .text other) ∧
      value.value.toList.getLast? ≠ some '\\')
    (following : AreRead globals inTag rest) : AreRead globals inTag (.text value :: rest) := by
  intro scanner after layers budget held escaped inContent deep enough
  have literal : ['\\'] <:+ value.value.toList →
      ¬BeginsMarker (printAll rest ++ contentEnd after) := by
    rintro ⟨front, whole⟩
    cases rest with
    | nil =>
        cases after with
        | none => simp [printAll, contentEnd, BeginsMarker, interpolationMarkers]
        | some after => simp [printAll, contentEnd, beginsMarker_cons_iff]
    | cons next more => exact absurd (by simp [← whole]) (separate next rfl).2
  have within : scanner.interpolated = true → ']' ∉ value.value.toList := by
    rw [inContent.interpolated]
    exact noBracket
  rw [printAll_text, List.append_assoc] at enough ⊢
  rw [printAll_text, List.length_append] at deep
  have apart := head?_printAll_append after fun next mem => (separate next mem).1
  rcases exists_addText_escapeMarkers (run [] layers) false held escaped inContent.allowed within
    apart literal enough with ⟨budgetLeft, escapedAfter, left, passed⟩
  have deeper : (printAll rest).length ≤ layers := by omega
  rcases following (held ++ value.value.toList) escapedAfter inContent deeper left
    with ⟨next, kinds, collects, denotes, read⟩
  refine ⟨next, kinds, collects, ?_, passed.trans read⟩
  simpa [htmlAll, html, String.append_assoc] using denotes

theorem areRead_code {name : VariableName} {escaped : Bool} {bound : String}
    (found : globals.lookup name.value = some bound) (following : AreRead globals inTag rest) :
    AreRead globals inTag (.code name escaped :: rest) := by
  intro scanner after layers budget held shift inContent deep enough
  rw [printAll_code] at deep enough ⊢
  simp only [List.length_cons, List.length_append, List.cons_append] at deep enough
  rcases Nat.exists_eq_add_of_le' (by omega : 1 ≤ budget) with ⟨budget, rfl⟩
  rcases exists_addText_code (run [] layers) (budget + 1) held shift inContent.allowed name escaped
    with ⟨middle, first, passed⟩
  have left : (printAll rest ++ contentEnd after).length ≤ budget := by
    rw [List.length_append]
    omega
  have deeper : (printAll rest).length ≤ layers := by omega
  rcases following [] 0 (inContent.of_collects first) deeper left
    with ⟨next, kinds, collects, denotes, read⟩
  refine ⟨next, _, first.trans collects, ?_, ?_⟩
  · simpa [htmlAll, html, found] using Denotes.code found denotes
  · simpa using passed.trans read

section

variable {scanner : Scanner} {layers : Nat} {after : List Char}

theorem firstMatch_bracket (interpolated : scanner.interpolated = true)
    (unread : scanner.unread = ']' :: after) (inner : Scanning Unit) :
    firstMatch [] inner Step.order scanner =
      .ok () { scanner with unread := after, ended := true } := by
  rcases Step.exists_order_eq_endInterpolation with ⟨rest, order⟩
  rw [order]
  apply firstMatch_of_forall_declines
  · simp only [List.forall_mem_cons, List.not_mem_nil, false_imp_iff, implies_true, and_true]
    exact ⟨declines_of_sign rfl unread (by decide), declines_endOfInput unread⟩
  · simp [Step.rule, SimpleRule.run, Rule.endInterpolation, interpolated, unread]

theorem exists_run_inside_eq (fits : Fits globals true content)
    (areRead : AreRead globals true content) (inContent : scanner.InContent true (some after))
    (unread : scanner.unread = printInside content ++ ']' :: after)
    (running : scanner.ended = false) (deep : (printAll content).length ≤ layers) :
    ∃ last inside, run [] (layers + 2) scanner = .ok () last ∧ last.unread = after ∧
      last.kinds = scanner.kinds ++ inside ∧
        Denotes globals inside (htmlAll globals content) := by
  cases content with
  | nil =>
      have stopped := firstMatch_bracket inContent.interpolated unread (run [] (layers + 1))
      have ran := (Scanner.run_eq_of_firstMatch running stopped).trans (Scanner.run_of_ended rfl)
      exact ⟨_, [], ran, rfl, by simp [Scanner.kinds], .nil⟩
  | cons piece rest =>
      have line : scanner.unread = ' ' :: (printAll (piece :: rest) ++ ']' :: after) ++ [] := by
        simpa [printInside] using unread
      have oneLine : '\n' ∉ printAll (piece :: rest) ++ ']' :: after := by
        simp [fits.notMem_printAll, inContent.oneLine after rfl]
      have inContentBehind : ((scanner.drop
          ((printAll (piece :: rest) ++ ']' :: after).length + 1)).right 1).InContent true
          (some after) :=
        ⟨inContent.place, inContent.oneLine, inContent.interpolated, inContent.allowed⟩
      rcases areRead [] 0 inContentBehind (Nat.le_succ_of_le deep) (Nat.le_refl _)
        with ⟨next, inside, collects, denotes, read⟩
      have matched := firstMatch_text line oneLine (by simp [EndsLine]) (by simp) read
      have ran := (Scanner.run_eq_of_firstMatch running matched).trans (Scanner.run_of_ended rfl)
      refine ⟨_, inside, ran, ?_, collects.kinds, by simpa using denotes⟩
      have allRead : next.unread = [] := by
        rw [collects.unread]
        simp [Scanner.right, Scanner.drop, line]
      simp [Scanner.endContent, allRead]

/-- A scanner of its own reads a tag and stops behind the bracket that closes it. -/
theorem exists_run_inTag_eq (name : ElementName) (fits : Fits globals true content)
    (areRead : AreRead globals true content) (scanner : Scanner) (held : List Char) (escaped : Nat)
    (oneLine : '\n' ∉ after) (deep : (printAll content).length ≤ layers) :
    ∃ last inside, run [] (layers + 3) (scanner.inTag held escaped
        (name.value.toList ++ (printInside content ++ ']' :: after))) = .ok () last ∧
      last.unread = after ∧ last.kinds = .tag name.value :: inside ∧
        Denotes globals inside (htmlAll globals content) := by
  have spaced : EndsWord (printInside content ++ ']' :: after) := by
    cases content <;> simp [EndsWord, printInside]
  generalize opened : scanner.inTag held escaped
    (name.value.toList ++ (printInside content ++ ']' :: after)) = child
  have unread : child.unread = name.value.toList ++ (printInside content ++ ']' :: after) := by
    rw [← opened]
    rfl
  have running : child.ended = false := by
    rw [← opened]
    rfl
  have behind : (child.emit (.tag name.value) name.value.toList.length).unread =
      printInside content ++ ']' :: after := by
    simp [Scanner.emit, Scanner.push, Scanner.right, Scanner.drop, unread]
  have inContent : (child.emit (.tag name.value) name.value.toList.length).InContent true
      (some after) := by
    rw [← opened]
    exact ⟨rfl, by simpa using oneLine, rfl, rfl⟩
  have named := Scanner.run_eq_of_firstMatch running
    (firstMatch_name name unread spaced (run [] (layers + 2)))
  rcases exists_run_inside_eq fits areRead inContent behind running deep
    with ⟨last, inside, ran, left, kinds, denotes⟩
  refine ⟨last, inside, named.trans ran, left, ?_, denotes⟩
  rw [kinds, ← opened]
  rfl

end

theorem areRead_tag {name : ElementName} (fitsContent : Fits globals true content)
    (fits : Fits globals inTag rest) (inside : AreRead globals true content)
    (following : AreRead globals inTag rest) :
    AreRead globals inTag (.tag name content :: rest) := by
  intro scanner after layers budget held escaped inContent deep enough
  have shorter := length_printAll_le content
  rw [printAll_tag] at deep enough ⊢
  simp only [List.length_cons, List.length_append, List.cons_append] at deep enough
  rcases Nat.exists_eq_add_of_le' (by omega : 1 ≤ budget) with ⟨budget, rfl⟩
  rcases Nat.exists_eq_add_of_le' (by omega : 3 ≤ layers) with ⟨layers, rfl⟩
  -- To the scanner of the tag, what follows the tag is the text behind its closing bracket.
  have oneLine : '\n' ∉ printAll rest ++ contentEnd after := by
    simp [fits.notMem_printAll, inContent.notMem_contentEnd]
  have deepInside : (printAll content).length ≤ layers := by omega
  rcases exists_run_inTag_eq name fitsContent inside scanner held escaped oneLine deepInside
    with ⟨last, kindsInside, ran, behind, kinds, denotesInside⟩
  rcases exists_addText_tag (budget + 1) inContent.allowed ran with ⟨middle, first, passed⟩
  have deeper : (printAll rest).length ≤ layers + 3 := by omega
  have left : (printAll rest ++ contentEnd after).length ≤ budget := by
    rw [List.length_append]
    omega
  rcases following [] 0 (inContent.of_collects first) deeper left
    with ⟨next, kindsBehind, collects, denotes, read⟩
  refine ⟨next, _, first.trans collects, ?_, ?_⟩
  · simpa [kinds, htmlAll, html, String.append_assoc] using
      Denotes.tag (String.ofList held) denotesInside denotes
  · rw [← behind] at read
    simpa using passed.trans read

theorem Fits.areRead {pieces : List Inline} (fits : Fits globals inTag pieces) :
    AreRead globals inTag pieces := by
  induction fits with
  | nil => exact areRead_nil
  | text noBracket separate _ ih => exact areRead_text noBracket separate ih
  | code bound _ ih =>
      rcases bound with ⟨value, found⟩
      exact areRead_code found ih
  | tag fitsContent fits ihInside ih => exact areRead_tag fitsContent fits ihInside ih

end Inline

/-! ### A line with content -/

/-- The line of an element with some content. -/
def contentLine (root : ElementName) (pieces : List Inline) : String :=
  root.value ++ " " ++ String.ofList (Inline.printAll pieces)

section

variable {globals : List (String × String)} {root : ElementName} {pieces : List Inline}

theorem toList_contentLine (root : ElementName) (pieces : List Inline) :
    (contentLine root pieces).toList = root.value.toList ++ (' ' :: Inline.printAll pieces) := by
  simp [contentLine]

theorem Scanner.Shows.of_collects {unit : IndentUnit} {levels : List Nat} {before after : Scanner}
    {text : List Char} {kinds found : List TokenKind} (shows : before.Shows unit text levels kinds)
    (collects : before.Collects found after) : after.Shows unit text levels (kinds ++ found) where
  unread := collects.unread.trans shows.unread
  levels := collects.levels.trans shows.levels
  kinds := by
    have before : before.kinds = kinds := shows.kinds
    rw [← before]
    exact collects.kinds
  unit := by
    rw [collects.unit]
    exact shows.unit
  running := collects.ended.trans shows.running
  outside := collects.interpolated.trans shows.outside

/-- From the name of the element on, a run comes to the end of the line. -/
theorem exists_run_content_eq {scanner : Scanner} {before : List TokenKind} {layers : Nat}
    (nonempty : pieces ≠ []) (fits : Inline.Fits globals false pieces)
    (allowed : scanner.markersAllowed = true)
    (shows : scanner.Shows .space (' ' :: Inline.printAll pieces) [] before)
    (deep : (Inline.printAll pieces).length ≤ layers) :
    ∃ last kinds, run [] (layers + 3) scanner = .ok () last ∧
      last.kinds = before ++ kinds ++ [.eos] ∧
        Denotes globals kinds (Inline.htmlAll globals pieces) := by
  have behind := (shows.drop ((Inline.printAll pieces).length + 1)).move
    (scanner.position.right 1)
  have inContent : ((scanner.drop ((Inline.printAll pieces).length + 1)).right 1).InContent false
      none :=
    ⟨rfl, by simp, behind.outside, allowed⟩
  have deeper : (Inline.printAll pieces).length ≤ layers + 2 := by omega
  rcases fits.areRead [] 0 inContent deeper (Nat.le_refl _)
    with ⟨next, kinds, collects, denotes, read⟩
  simp only [contentEnd, List.append_nil] at read
  have line : scanner.unread = ' ' :: Inline.printAll pieces ++ [] := by
    simpa using shows.unread
  have oneLine : '\n' ∉ Inline.printAll pieces := fits.notMem_printAll (.inl rfl)
  have matched := firstMatch_text line oneLine (by simp [EndsLine])
    (Inline.printAll_ne_nil nonempty) read
  have shown := behind.of_collects collects
  rw [List.drop_of_length_le (by simp)] at shown
  rcases exists_stepsTo_end shown with ⟨last, stepped, ended, lastKinds⟩
  refine ⟨last, kinds, ?_, lastKinds.trans (by simp), by simpa using denotes⟩
  calc run [] (layers + 3) scanner
      = run [] (layers + 2) next := Scanner.run_eq_of_firstMatch shows.running matched
    _ = run [] (layers + 1) last := stepped.run_eq
    _ = .ok () last := Scanner.run_of_ended ended

/-- The line of an element with some content is cut into tokens that stand for the content. -/
theorem exists_tokenize_contentLine_eq (nonempty : pieces ≠ [])
    (fits : Inline.Fits globals false pieces) (file : Option String) (events : Array Event) :
    ∃ tokens eventsAfter kinds,
      tokenize (contentLine root pieces) { file } events = .ok tokens eventsAfter ∧
        tokens.toList.map Token.kind = .tag root.value :: (kinds ++ [.eos]) ∧
          Denotes globals kinds (Inline.htmlAll globals pieces) := by
  have noReturn : '\r' ∉ (contentLine root pieces).toList := by
    simp [toList_contentLine, root.noReturn, fits.notMem_printAll]
  have noMark := root.noMark (toList_contentLine root pieces ▸ List.prefix_append _ _)
  have shows : Scanner.Shows
      { ({ file } : TokenOptions).scanner (contentLine root pieces) with events := events }
      .space (contentLine root pieces).toList [] [] :=
    shows_scanner _ events noReturn noMark rfl
  rw [toList_contentLine] at shows
  have spaced : EndsWord (' ' :: Inline.printAll pieces) := by simp [EndsWord]
  have matched := firstMatch_name root shows.unread spaced
  rcases root.exists_eq_cons with ⟨first, more, chars⟩
  have deep : (Inline.printAll pieces).length ≤
      more.length + (Inline.printAll pieces).length := by omega
  rcases exists_run_content_eq nonempty fits rfl (shows.emit (.tag root.value)) deep
    with ⟨last, kinds, read, lastKinds, denotes⟩
  have budget : (root.value.toList ++ ' ' :: Inline.printAll pieces).length + 2 =
      more.length + (Inline.printAll pieces).length + 3 + 1 := by
    simp [chars]
    omega
  have ran : runAll [] { ({ file } : TokenOptions).scanner (contentLine root pieces) with
      events := events } = .ok () last := by
    refine get_bind_eq.trans ?_
    rw [shows.unread, budget]
    exact (Scanner.run_eq_of_firstMatch shows.running (matched _)).trans read
  rcases exists_tokenize_eq_of_runAll_eq ran with ⟨tokens, eventsAfter, cut, found⟩
  exact ⟨tokens, eventsAfter, kinds, cut, found.trans lastKinds, denotes⟩

end

end Offside
