import Offside.Proofs.Layout.Element
import Offside.Proofs.Layout.Steps

/-!
# Which rule takes an element's line

The line of an element is read by the rules for tags and for texts, and what is between two lines by
those for blank lines and for indentation. All rules before these pass: a reserved word is not at
the start of the text, and the signs by which the other rules know their texts are not either.
-/

namespace Offside

open Computing Relation Text

namespace Text

/-- A word at the start of a text would only be the beginning of a longer word. -/
def PassesWord (word : String) (text : List Char) : Prop :=
  ∀ rest, afterKeyword? word text = some rest →
    ∃ next others, rest = next :: others ∧ isWord next = true

/-- A word at the start of a text would go on with something that is not blank. -/
def ContinuesWord (word : String) (text : List Char) : Prop :=
  ∀ rest, afterKeyword? word text = some rest →
    ∃ next others, rest = next :: others ∧ isSeparator next = false

theorem PassesWord.continues {word : String} {text : List Char} (passes : PassesWord word text) :
    ContinuesWord word text := by
  intro rest found
  rcases passes rest found with ⟨next, others, isRest, isNext⟩
  have space := ne_of_isWord isNext (by decide : isWord ' ' = false)
  have newline := ne_of_isWord isNext (by decide : isWord '\n' = false)
  have tab := ne_of_isWord isNext (by decide : isWord '\t' = false)
  exact ⟨next, others, isRest, by simp [isSeparator, space, newline, tab]⟩

end Text

section

variable {word : String} {text : List Char} {scanner : Scanner}

/-- A word that begins with another character is not at the start of a text. -/
theorem passesWord_of_head? {first : Char} (other : word.toList.head? ∉ [none, some first])
    (rest : List Char) : PassesWord word (first :: rest) := by
  intro others found
  rw [afterKeyword?, after?_eq_some_iff] at found
  cases letters : word.toList with
  | nil => simp [letters] at other
  | cons letter more =>
      simp only [letters, List.cons_append, List.cons.injEq] at found
      simp [letters, ← found.1] at other

theorem keywordLine_eq_none_of_continues (continues : ContinuesWord word scanner.unread)
    (noColon : ∀ rest, afterKeyword? word scanner.unread ≠ some (':' :: rest)) (kind : TokenKind) :
    Rule.keywordLine word kind scanner = none := by
  unfold Rule.keywordLine
  cases found : afterKeyword? word scanner.unread with
  | none => rfl
  | some rest =>
      rcases continues rest found with ⟨next, others, rfl, noSeparator⟩
      have colon : next ≠ ':' := by
        rintro rfl
        exact noColon others found
      simp only [isSeparator, Bool.or_eq_false_iff, beq_eq_false_iff_ne] at noSeparator
      have blank : isIndentation next = false := by simp [isIndentation, noSeparator]
      simp [Scanner.endOfLine?, blank, colon, noSeparator]

theorem keywordLine_eq_none (passes : PassesWord word scanner.unread) (kind : TokenKind) :
    Rule.keywordLine word kind scanner = none := by
  refine keywordLine_eq_none_of_continues passes.continues (fun rest found => ?_) kind
  rcases passes _ found with ⟨_, _, ⟨⟩, isNext⟩
  exact absurd isNext (by decide)

theorem opensWith_eq_false_of_continues (continues : ContinuesWord word text) {stops : List Char}
    (blanks : ∀ stop ∈ stops, isSeparator stop = true) :
    Rule.opensWith word stops text = false := by
  unfold Rule.opensWith
  split
  · rfl
  · next found =>
      rcases continues _ found with ⟨_, _, ⟨⟩, _⟩
  · next next others found =>
      rcases continues _ found with ⟨_, _, ⟨⟩, noSeparator⟩
      rw [← Bool.not_eq_true, List.contains_iff_mem]
      intro stop
      simp [blanks next stop] at noSeparator

theorem opensWith_eq_false (passes : PassesWord word text) {stops : List Char}
    (noWord : stops.any isWord = false) : Rule.opensWith word stops text = false := by
  unfold Rule.opensWith
  split
  · rfl
  · next found =>
      rcases passes _ found with ⟨_, _, ⟨⟩, _⟩
  · next next others found =>
      rcases passes _ found with ⟨_, _, ⟨⟩, isNext⟩
      rw [← Bool.not_eq_true, List.contains_iff_mem]
      intro stop
      simp [List.any_eq_false.mp noWord next stop] at isNext

theorem atWordBoundary_eq_false (passes : PassesWord word text) :
    atWordBoundary word text = false := by
  unfold atWordBoundary
  split
  · rfl
  · next found =>
      rcases passes _ found with ⟨_, _, ⟨⟩, _⟩
  · next found =>
      rcases passes _ found with ⟨_, _, ⟨⟩, isNext⟩
      simp [isNext]

theorem keywordSpaces?_eq_none_of_continues (continues : ContinuesWord word text) :
    Rule.keywordSpaces? word text = none := by
  unfold Rule.keywordSpaces?
  cases found : afterKeyword? word text with
  | none => rfl
  | some rest =>
      rcases continues rest found with ⟨next, others, rfl, noSeparator⟩
      simp only [isSeparator, Bool.or_eq_false_iff, beq_eq_false_iff_ne] at noSeparator
      simp [noSeparator]

theorem keywordSpaces?_eq_none (passes : PassesWord word text) :
    Rule.keywordSpaces? word text = none :=
  keywordSpaces?_eq_none_of_continues passes.continues

end

/-- The steps that begin with a reserved word. -/
def keywordSteps : List Step :=
  [.yieldSlot, .doctype, .default, .inheritance, .append, .prepend, .block, .mixinBlock,
    .inclusion, .mixin]

/-- The words that the rule of a step looks for. -/
def Step.words : Step → List String
  | .yieldSlot => ["yield"]
  | .doctype => ["doctype"]
  | .default => ["default"]
  | .inheritance => ["extends", "extend"]
  | .append => ["block", "append"]
  | .prepend => ["block", "prepend"]
  | .block | .mixinBlock => ["block"]
  | .inclusion => ["include"]
  | .mixin => ["mixin"]
  | _ => []

theorem words_subset_reservedWords (step : Step) : step.words ⊆ reservedWords := by
  cases step <;> decide

/-- No rule for some words takes a text that begins with none of them. -/
theorem declines_of_words {step : Step} {scanner : Scanner} (mem : step ∈ keywordSteps)
    (passes : ∀ word ∈ step.words, PassesWord word scanner.unread) : step.Declines scanner := by
  intro inner
  cases step <;> simp [keywordSteps] at mem <;>
    simp only [Step.words, List.forall_mem_cons, List.not_mem_nil, false_imp_iff, implies_true,
      and_true] at passes
  case yieldSlot => simp [Step.rule, SimpleRule.run, keywordLine_eq_none passes]
  case doctype =>
      simp [Step.rule, SimpleRule.run, Rule.doctype,
        opensWith_eq_false passes (by decide : [' ', '\n'].any isWord = false)]
  case default =>
      simp [Step.rule, CheckedRule.run, Rule.defaultKeyword, keywordLine_eq_none passes,
        atWordBoundary_eq_false passes]
  case inheritance =>
      have stops : [' ', '\n'].any isWord = false := by decide
      simp [Step.rule, Rule.inheritance, get_bind_eq, opensWith_eq_false passes.1 stops,
        opensWith_eq_false passes.2 stops, atWordBoundary_eq_false passes.1,
        atWordBoundary_eq_false passes.2, pure, EStateM.pure]
  case append =>
      simp [Step.rule, SimpleRule.run, Rule.namedBlock, Rule.blockHead?,
        keywordSpaces?_eq_none passes.1, keywordSpaces?_eq_none passes.2]
  case prepend =>
      simp [Step.rule, SimpleRule.run, Rule.namedBlock, Rule.blockHead?,
        keywordSpaces?_eq_none passes.1, keywordSpaces?_eq_none passes.2]
  case block =>
      simp [Step.rule, SimpleRule.run, Rule.namedBlock, Rule.blockHead?,
        keywordSpaces?_eq_none passes]
  case mixinBlock => simp [Step.rule, SimpleRule.run, keywordLine_eq_none passes]
  case inclusion =>
      have stops : [':', ' ', '\n'].any isWord = false := by decide
      simp [Step.rule, Rule.inclusion, get_bind_eq, opensWith_eq_false passes stops,
        atWordBoundary_eq_false passes, pure, EStateM.pure]
  case mixin => simp [Step.rule, SimpleRule.run, Rule.mixin, keywordSpaces?_eq_none passes]

/-- No rule for a reserved word takes a text that begins with none. -/
theorem declines_of_mem_keywordSteps {scanner : Scanner}
    (passes : ∀ word ∈ reservedWords, PassesWord word scanner.unread) :
    ∀ step ∈ keywordSteps, step.Declines scanner :=
  fun step mem => declines_of_words mem fun word known =>
    passes word (words_subset_reservedWords step known)

/-- The sign by which some rules know their texts. -/
def Step.sign? : Step → Option Char
  | .blank | .indentation => some '\n'
  | .call => some '+'
  | .interpolation | .id => some '#'
  | .filter => some ':'
  | .dot | .className => some '.'
  | .attributes => some '('
  | _ => none

theorem declines_of_sign {step : Step} {sign first : Char} {rest : List Char} {scanner : Scanner}
    (known : step.sign? = some sign) (unread : scanner.unread = first :: rest)
    (other : first ≠ sign) : step.Declines scanner := by
  intro inner
  cases step <;> cases known
  · simp [Step.rule, SimpleRule.run, Rule.blankLine, unread, other]
  · simp [Step.rule, CheckedRule.run, Rule.call, unread, other]
  · simp [Step.rule, CheckedRule.run, Rule.interpolation, unread, other]
  · simp [Step.rule, Rule.filter, get_bind_eq, unread, other, pure, EStateM.pure]
  · simp [Step.rule, CheckedRule.run, Rule.id, unread, other]
  · simp [Step.rule, Rule.dot, get_bind_eq, unread, other, pure, EStateM.pure]
  · simp [Step.rule, CheckedRule.run, Rule.className, unread, other]
  · simp [Step.rule, CheckedRule.run, Rule.attributes, unread, other]
  · simp [Step.rule, CheckedRule.run, Rule.indentation, Scanner.measure?, unread, other]

theorem declines_endOfInput {first : Char} {rest : List Char} {scanner : Scanner}
    (unread : scanner.unread = first :: rest) : Step.endOfInput.Declines scanner := by
  intro inner
  simp [Step.rule, CheckedRule.run, Rule.endOfInput, unread]

theorem declines_endInterpolation {scanner : Scanner} (outside : scanner.interpolated = false) :
    Step.endInterpolation.Declines scanner := by
  intro inner
  simp [Step.rule, SimpleRule.run, Rule.endInterpolation, outside]

theorem declines_endInterpolation_of_ne {first : Char} {rest : List Char} {scanner : Scanner}
    (unread : scanner.unread = first :: rest) (other : first ≠ ']') :
    Step.endInterpolation.Declines scanner := by
  intro inner
  simp [Step.rule, SimpleRule.run, Rule.endInterpolation, unread, other]

theorem declines_tag {first : Char} {rest : List Char} {scanner : Scanner}
    (unread : scanner.unread = first :: rest) (noWord : isWord first = false) :
    Step.tag.Declines scanner := by
  intro inner
  simp [Step.rule, SimpleRule.run, Rule.tag, unread, noWord]

/-! ### The rules before those for lines -/

/-- The steps before that for a tag. -/
def Step.beforeTag : List Step :=
  [.blank, .endOfInput, .endInterpolation] ++ keywordSteps ++ [.call, .interpolation]

theorem Step.exists_order_eq_blank : ∃ rest, Step.order = [] ++ .blank :: rest :=
  ⟨_, rfl⟩

theorem Step.exists_order_eq_endOfInput : ∃ rest, Step.order = [.blank] ++ .endOfInput :: rest :=
  ⟨_, rfl⟩

theorem Step.exists_order_eq_endInterpolation :
    ∃ rest, Step.order = [.blank, .endOfInput] ++ .endInterpolation :: rest :=
  ⟨_, rfl⟩

/-- The steps before that for an include. -/
def Step.beforeInclusion : List Step :=
  [.blank, .endOfInput, .endInterpolation] ++ keywordSteps.take 8

theorem Step.exists_order_eq_inclusion :
    ∃ rest, Step.order = Step.beforeInclusion ++ .inclusion :: rest :=
  ⟨_, rfl⟩

theorem Step.exists_order_eq_tag : ∃ rest, Step.order = Step.beforeTag ++ .tag :: rest :=
  ⟨_, rfl⟩

/-- The steps before that for the indentation of a line. -/
def Step.beforeIndentation : List Step :=
  Step.beforeTag ++ [.tag, .filter, .id, .dot, .className, .attributes]

theorem Step.exists_order_eq_indentation :
    ∃ rest, Step.order = Step.beforeIndentation ++ .indentation :: rest :=
  ⟨_, rfl⟩

theorem Step.exists_order_eq_text :
    ∃ rest, Step.order = (Step.beforeIndentation ++ [.indentation]) ++ .text :: rest :=
  ⟨_, rfl⟩

section

variable {first : Char} {rest : List Char} {scanner : Scanner}

theorem declines_beforeTag (unread : scanner.unread = first :: rest)
    (continues : Step.endInterpolation.Declines scanner) (blank : Step.blank.Declines scanner)
    (passes : ∀ word ∈ reservedWords, PassesWord word (first :: rest)) (plus : first ≠ '+')
    (hash : first ≠ '#') : ∀ step ∈ Step.beforeTag, step.Declines scanner := by
  rw [← unread] at passes
  have keywords := declines_of_mem_keywordSteps passes
  simp only [Step.beforeTag, List.forall_mem_append, List.forall_mem_cons]
  exact ⟨⟨⟨blank, declines_endOfInput unread, continues, by simp⟩, keywords⟩,
    declines_of_sign rfl unread plus, declines_of_sign rfl unread hash, by simp⟩

/-- At the keyword of an include no other rule for a keyword matches. -/
theorem declines_beforeInclusion (unread : scanner.unread = "include".toList ++ rest) :
    ∀ step ∈ Step.beforeInclusion, step.Declines scanner := by
  have cons : scanner.unread = 'i' :: ("nclude".toList ++ rest) := unread
  have keywords : ∀ step ∈ keywordSteps.take 8, step.Declines scanner := by
    intro step mem
    refine declines_of_words (List.mem_of_mem_take mem) fun word known => ?_
    rw [cons]
    apply passesWord_of_head?
    revert word
    revert step
    decide
  simp only [Step.beforeInclusion, List.forall_mem_append, List.forall_mem_cons]
  exact ⟨⟨declines_of_sign rfl cons (by decide), declines_endOfInput cons,
    declines_endInterpolation_of_ne cons (by decide), by simp⟩, keywords⟩

theorem declines_beforeIndentation (unread : scanner.unread = first :: rest)
    (continues : Step.endInterpolation.Declines scanner) (blank : Step.blank.Declines scanner)
    (passes : ∀ word ∈ reservedWords, PassesWord word (first :: rest))
    (noWord : isWord first = false) (noSign : first ∉ ['+', '#', ':', '.', '(']) :
    ∀ step ∈ Step.beforeIndentation, step.Declines scanner := by
  simp only [List.mem_cons, List.not_mem_nil, or_false, not_or] at noSign
  rcases noSign with ⟨plus, hash, colon, dot, paren⟩
  have tags := declines_beforeTag unread continues blank passes plus hash
  simp only [Step.beforeIndentation, List.forall_mem_append, List.forall_mem_cons]
  exact ⟨tags, declines_tag unread noWord, declines_of_sign rfl unread colon,
    declines_of_sign rfl unread hash, declines_of_sign rfl unread dot,
    declines_of_sign rfl unread dot, declines_of_sign rfl unread paren, by simp⟩

end

end Offside
