import Offside.Proofs.Brackets.Region
import Offside.Proofs.Inline.Content
import Offside.Proofs.Layout.Scanning
import Offside.Proofs.Nesting.Extension

/-!
# Running text up to the next marker

The scanner holds a text back until it comes to a marker. An escaped text is held as it was before
it was escaped, and at a variable it becomes a token, and the variable another one.
-/

namespace Offside

open Computing Text

/-! ### What begins an interpolation -/

/-- A text begins an interpolation. -/
def BeginsMarker (text : List Char) : Prop :=
  ∃ opening ∈ interpolationMarkers, opening <+: text

section

variable {character : Char} {text rest : List Char}

theorem beginsMarker_cons_iff :
    BeginsMarker (character :: rest) ↔
      character = '#' ∧ rest.head? = some '[' ∨ character = '#' ∧ rest.head? = some '\x7b' ∨
        character = '!' ∧ rest.head? = some '\x7b' := by
  cases rest <;> simp [BeginsMarker, interpolationMarkers, eq_comm]

theorem markerAt?_eq_none (plain : ¬BeginsMarker (character :: rest))
    (literal : character = '\\' → ¬BeginsMarker rest) :
    markerAt? (character :: rest) = none := by
  unfold markerAt?
  split
  · next found =>
      rcases List.cons.inj found with ⟨rfl, rfl⟩
      simp [beginsMarker_cons_iff] at literal
  · next found =>
      rcases List.cons.inj found with ⟨rfl, rfl⟩
      simp [beginsMarker_cons_iff] at literal
  · next found =>
      rcases List.cons.inj found with ⟨rfl, rfl⟩
      simp [beginsMarker_cons_iff] at literal
  · next found =>
      rcases List.cons.inj found with ⟨rfl, rfl⟩
      simp [beginsMarker_cons_iff] at plain
  · next found =>
      rcases List.cons.inj found with ⟨rfl, rfl⟩
      simp [beginsMarker_cons_iff] at plain
  · next found =>
      rcases List.cons.inj found with ⟨rfl, rfl⟩
      simp [beginsMarker_cons_iff] at plain
  · rfl

theorem head?_escapeMarkers_append {first : Char}
    (found : (escapeMarkers text ++ rest).head? = some first) :
    first = '\\' ∨ text.head? = some first ∨ text = [] ∧ rest.head? = some first := by
  unfold escapeMarkers at found
  split at found
  all_goals simp_all [eq_comm]

/-- An escaped text begins no interpolation, if what stands behind it does not go on with one. -/
theorem not_beginsMarker_escapeMarkers (nonempty : text ≠ [])
    (apart : ∀ next ∈ rest.head?, next ≠ '[' ∧ next ≠ '\x7b') :
    ¬BeginsMarker (escapeMarkers text ++ rest) := by
  unfold escapeMarkers
  split
  · simp [beginsMarker_cons_iff]
  · simp [beginsMarker_cons_iff]
  · simp [beginsMarker_cons_iff]
  · next first others noTag noCode noRaw =>
      have behind : ∀ bracket, bracket = '[' ∨ bracket = '\x7b' →
          (escapeMarkers others ++ rest).head? = some bracket → others.head? = some bracket := by
        intro bracket known found
        rcases head?_escapeMarkers_append found with rfl | here | ⟨_, next⟩
        · simp at known
        · exact here
        · have different := apart bracket next
          simp [different] at known
      rw [List.cons_append, beginsMarker_cons_iff]
      rintro (⟨rfl, found⟩ | ⟨rfl, found⟩ | ⟨rfl, found⟩)
      · rcases List.head?_eq_some_iff.mp (behind _ (.inl rfl) found) with ⟨more, rfl⟩
        exact noTag more rfl rfl
      · rcases List.head?_eq_some_iff.mp (behind _ (.inr rfl) found) with ⟨more, rfl⟩
        exact noCode more rfl rfl
      · rcases List.head?_eq_some_iff.mp (behind _ (.inr rfl) found) with ⟨more, rfl⟩
        exact noRaw more rfl rfl
  · exact absurd rfl nonempty

end

/-! ### Text that is held -/

section

variable {inner : Scanning Unit} {html : Bool} {budget escaped : Nat} {character : Char}
  {text held rest : List Char} {scanner : Scanner}

theorem findMarker_cons {interpolated allowed : Bool}
    (within : interpolated = true → character ≠ ']')
    (noMarker : markerAt? (character :: rest) = none) :
    findMarker interpolated allowed (character :: rest) =
      (findMarker interpolated allowed rest).map fun (front, found) =>
        (character :: front, found) := by
  have closes : (interpolated && character == ']') = false := by
    cases interpolated <;> simp_all
  simp [findMarker, closes, noMarker]

/-- A character that is part of no marker is held. -/
theorem addText_cons (within : scanner.interpolated = true → character ≠ ']')
    (noMarker : markerAt? (character :: rest) = none) :
    addText inner html (budget + 1) (character :: rest) held escaped scanner =
      addText inner html (budget + 1) rest (held ++ [character]) escaped scanner := by
  simp only [addText, get_bind_eq, findMarker_cons within noMarker]
  cases findMarker scanner.interpolated scanner.markersAllowed rest with
  | none => simp
  | some found =>
      rcases found with ⟨front, marker, others⟩
      cases marker <;> simp

/-- Behind a backslash a marker is held as a text. -/
theorem addText_escaped (allowed : scanner.markersAllowed = true) {sigil bracket : Char}
    (known : [sigil, bracket] ∈ interpolationMarkers) :
    addText inner html (budget + 1) ('\\' :: sigil :: bracket :: rest) held escaped scanner =
      addText inner html budget rest (held ++ [sigil, bracket]) (escaped + 1) scanner := by
  simp only [interpolationMarkers, List.mem_cons, List.cons.injEq, List.not_mem_nil, or_false,
    and_true] at known
  rcases known with ⟨rfl, rfl⟩ | ⟨rfl, rfl⟩ | ⟨rfl, rfl⟩ <;>
    simp [addText, get_bind_eq, findMarker, markerAt?, allowed]

/-- An escaped text is held as it was before it was escaped. -/
theorem exists_addText_escapeMarkers (inner : Scanning Unit) (html : Bool) (held : List Char)
    (escaped : Nat) (allowed : scanner.markersAllowed = true)
    (within : scanner.interpolated = true → ']' ∉ text)
    (apart : ∀ next ∈ rest.head?, next ≠ '[' ∧ next ≠ '\x7b')
    (literal : ['\\'] <:+ text → ¬BeginsMarker rest)
    (enough : (escapeMarkers text ++ rest).length ≤ budget) :
    ∃ budgetLeft escapedAfter, rest.length ≤ budgetLeft ∧
      addText inner html (budget + 1) (escapeMarkers text ++ rest) held escaped scanner =
        addText inner html (budgetLeft + 1) rest (held ++ text) escapedAfter scanner := by
  fun_induction escapeMarkers text generalizing budget held escaped with
  | case1 others ih | case2 others ih | case3 others ih =>
      rcases Nat.exists_eq_add_of_le' (Nat.le_trans (by simp) enough : 1 ≤ budget)
        with ⟨fewer, rfl⟩
      have grown (sigil bracket : Char) :
          held ++ sigil :: bracket :: others = held ++ [sigil, bracket] ++ others := by simp
      rw [List.cons_append, List.cons_append, List.cons_append,
        addText_escaped allowed (by simp [interpolationMarkers]), grown]
      refine ih _ _ (fun inside mem => within inside ?_) (fun suffix => literal ?_) ?_
      · simp [mem]
      · exact suffix.trans (List.suffix_append [_, _] others)
      · simp only [List.length_append, List.length_cons] at enough ⊢
        omega
  | case4 first others noTag noCode noRaw ih =>
      have plain := not_beginsMarker_escapeMarkers (List.cons_ne_nil first others) apart
      rw [escapeMarkers.eq_4 first others noTag noCode noRaw] at plain
      have noMarker : markerAt? (first :: (escapeMarkers others ++ rest)) = none := by
        apply markerAt?_eq_none plain
        rintro rfl
        cases others with
        | nil => exact literal List.suffix_rfl
        | cons => exact not_beginsMarker_escapeMarkers (by simp) apart
      have withinFirst : scanner.interpolated = true → first ≠ ']' := by
        rintro inside rfl
        exact within inside (by simp)
      rw [List.cons_append, addText_cons withinFirst noMarker,
        List.append_cons held first others]
      refine ih _ _ (fun inside mem => within inside (List.mem_cons_of_mem first mem))
        (fun suffix => literal (suffix.trans (List.suffix_cons first others))) ?_
      simp only [List.cons_append, List.length_cons] at enough
      omega
  | case5 => exact ⟨budget, escaped, enough, by simp⟩

end

/-! ### Variables -/

namespace Scanner

/-- Some tokens are found in a run of text, and all else that counts stays as it is. -/
structure Collects (before : Scanner) (kinds : List TokenKind) (after : Scanner) : Prop where
  kinds : after.kinds = before.kinds ++ kinds
  unread : after.unread = before.unread
  interpolated : after.interpolated = before.interpolated
  allowed : after.markersAllowed = before.markersAllowed
  ended : after.ended = before.ended
  levels : after.levels = before.levels
  unit : after.unit = before.unit

variable {before middle after : Scanner} {kinds others : List TokenKind}

theorem Collects.refl : Collects before [] before :=
  ⟨by simp, rfl, rfl, rfl, rfl, rfl, rfl⟩

theorem Collects.trans (first : Collects before kinds middle)
    (second : Collects middle others after) : Collects before (kinds ++ others) after where
  kinds := by rw [second.kinds, first.kinds, List.append_assoc]
  unread := second.unread.trans first.unread
  interpolated := second.interpolated.trans first.interpolated
  allowed := second.allowed.trans first.allowed
  ended := second.ended.trans first.ended
  levels := second.levels.trans first.levels
  unit := second.unit.trans first.unit

theorem collects_push (scanner : Scanner) (kind : TokenKind) (start stop : Position) :
    Collects scanner [kind] ({ scanner with position := stop }.push kind start) :=
  ⟨kinds_push _ _ _, rfl, rfl, rfl, rfl, rfl, rfl⟩

theorem collects_pushText (scanner : Scanner) (value : List Char) (escaped : Nat) :
    Collects scanner [.text (String.ofList value)] (scanner.pushText false value escaped) :=
  collects_push scanner _ _ _

end Scanner

theorem VariableName.isPlain_of_mem (name : VariableName) {character : Char}
    (mem : character ∈ name.value.toList) : Bracket.isPlain character = true := by
  have noLetters : ∀ other ∈ ['\x27', '\x22', '\x60', '(', '\x7b', '[', ')', '\x7d', ']', '/'],
      isAlphanumeric other = false := by
    simp only [List.forall_mem_cons, List.not_mem_nil, false_imp_iff, implies_true, and_true]
    and_intros <;> decide +kernel
  have noSigns : ∀ other ∈ ['\x27', '\x22', '\x60', '(', '\x7b', '[', ')', '\x7d', ']', '/'],
      other ∉ ['_', '$', '-'] := by
    simp
  have differs : ∀ other ∈ ['\x27', '\x22', '\x60', '(', '\x7b', '[', ')', '\x7d', ']', '/'],
      character ≠ other :=
    fun other known => name.ne_of_mem mem (noLetters other known) (noSigns other known)
  simp only [List.forall_mem_cons, List.not_mem_nil, false_imp_iff, implies_true, and_true]
    at differs
  simp [Bracket.isPlain, Bracket.isQuote, Bracket.closing, Bracket.isClosing, differs]

section

variable {rest : List Char} {scanner : Scanner}

/-- At a variable the held text becomes a token, and the variable another one. -/
theorem exists_addText_code (inner : Scanning Unit) (budget : Nat) (held : List Char)
    (escaped : Nat) (allowed : scanner.markersAllowed = true) (name : VariableName)
    (shown : Bool) :
    ∃ next, scanner.Collects [.text (String.ofList held), .code name.value true shown] next ∧
      addText inner false (budget + 1)
        ((if shown then '#' else '!') :: '\x7b' :: (name.value.toList ++ '\x7d' :: rest))
        held escaped scanner = addText inner false budget rest [] 0 next := by
  have closed : Bracket.find '\x7d' (name.value.toList ++ '\x7d' :: rest) =
      .closed name.value.toList rest :=
    Bracket.find_balanced (by
      simpa using Bracket.Balanced.nil.plain _ fun _ mem => name.isPlain_of_mem mem) rfl
  have found : findMarker scanner.interpolated scanner.markersAllowed
      ((if shown then '#' else '!') :: '\x7b' :: (name.value.toList ++ '\x7d' :: rest)) =
      some ([], .code (if shown then '#' else '!'), name.value.toList ++ '\x7d' :: rest) := by
    cases shown <;> simp [findMarker, markerAt?, allowed]
  have same : ((if shown then '#' else '!') == '#') = shown := by
    cases shown <;> rfl
  have pushed := scanner.collects_pushText held escaped
  have coded := Scanner.collects_push (scanner.pushText false held escaped)
    (.code name.value true shown) (scanner.pushText false held escaped).position
    (((scanner.pushText false held escaped).position.right 2).past name.value.toList |>.right 1)
  refine ⟨_, pushed.trans coded, ?_⟩
  simp only [addText, get_bind_eq, found, List.append_nil, Scanner.pushCode, closed, same,
    String.ofList_toList]
  rfl

/-- The scanner for an interpolated tag in front of which some text is held. -/
def Scanner.inTag (scanner : Scanner) (held : List Char) (escaped : Nat) (body : List Char) :
    Scanner :=
  let shown := scanner.pushText false held escaped
  ((shown.right 2).push .startInterpolation shown.position).nest body

/-- At a tag the held text becomes a token, and a scanner of its own reads the tag. What that one
finds stands between two tokens, and what it leaves unread is read on. -/
theorem exists_addText_tag {inner : Scanning Unit} (budget : Nat) {held body : List Char}
    {escaped : Nat} {last : Scanner} (allowed : scanner.markersAllowed = true)
    (ran : inner (scanner.inTag held escaped body) = .ok () last) :
    ∃ next, scanner.Collects ([.text (String.ofList held), .startInterpolation] ++ last.kinds ++
        [.endInterpolation]) next ∧
      addText inner false (budget + 1) ('#' :: '[' :: body) held escaped scanner =
        addText inner false budget last.unread [] 0 next := by
  have found : findMarker scanner.interpolated scanner.markersAllowed ('#' :: '[' :: body) =
      some ([], .tag, body) := by
    simp [findMarker, markerAt?, allowed]
  have read : ∃ next, interpolated inner body (scanner.pushText false held escaped) =
      .ok last.unread next ∧ (scanner.pushText false held escaped).Collects
        (.startInterpolation :: (last.kinds ++ [.endInterpolation])) next := by
    unfold Scanner.inTag at ran
    simp only [interpolated, ran]
    refine ⟨_, rfl, ?_, rfl, rfl, rfl, rfl, rfl, rfl⟩
    simp [Scanner.kinds, Scanner.push, Scanner.right]
  rcases read with ⟨next, read, collects⟩
  have both := (scanner.collects_pushText held escaped).trans collects
  refine ⟨next, by simpa using both, ?_⟩
  simp only [addText, get_bind_eq, found, List.append_nil]
  exact bind_of_ok read

end

end Offside
