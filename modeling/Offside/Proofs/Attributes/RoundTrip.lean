import Offside.Proofs.Attributes.Reading
import Offside.Proofs.Brackets.Region
import Offside.Proofs.Layout.Tokens

/-!
# Attribute lists behind a name

A tag with a printed attribute list behind its name is read as the tag and the entries of the list.
The rule for lists finds the closing bracket by counting brackets and then reads the entries in
front of it; since what is printed is balanced, these are the entries that were printed.
-/

namespace Offside

open Computing Relation Text

/-! ### Names of tags -/

/-- A name that is read as that of a tag when a bracket follows it: it may hold dashes and colons,
but not at its end. Four keywords stop at any other character than a letter, a digit or an
underscore, and two at a colon. -/
structure TagName where
  value : String
  begins : ∃ first ∈ value.toList.head?, isWord first = true
  allowed : ∀ character ∈ value.toList, isWordOrDash character = true ∨ character = ':'
  ends : ∀ last ∈ value.toList.getLast?, last ≠ '-' ∧ last ≠ ':'
  noKeyword : ∀ word ∈ ["default", "extends", "extend", "include"],
    value.toList.takeWhile isWord ≠ word.toList
  noLabel : ∀ word ∈ ["yield", "block"], ¬word.toList ++ [':'] <+: value.toList

namespace TagName

variable (name : TagName) {rest : List Char}

theorem exists_eq_cons : ∃ first more, name.value.toList = first :: more ∧ isWord first = true := by
  rcases name.begins with ⟨first, found, isFirst⟩
  rcases List.head?_eq_some_iff.mp found with ⟨more, chars⟩
  exact ⟨first, more, chars, isFirst⟩

theorem not_isSeparator_of_mem {character : Char} (mem : character ∈ name.value.toList) :
    isSeparator character = false := by
  have allowed := name.allowed character mem
  rw [← Bool.not_eq_true]
  intro blank
  simp only [isSeparator, Bool.or_eq_true, beq_iff_eq, or_assoc] at blank
  rcases blank with rfl | rfl | rfl <;> exact absurd allowed (by decide)

theorem ne_of_mem {character other : Char} (mem : character ∈ name.value.toList)
    (unfit : isWordOrDash other = false) (noColon : other ≠ ':') : character ≠ other := by
  rintro rfl
  rcases name.allowed character mem with allowed | rfl
  · simp [allowed] at unfit
  · exact noColon rfl

/-- A word at the start of a name goes on in the name or stops at the bracket behind it. -/
theorem exists_append_of_afterKeyword? {word : String} {others : List Char}
    (letters : word.toList.all isWord = true)
    (found : afterKeyword? word (name.value.toList ++ '(' :: rest) = some others) :
    ∃ more, name.value.toList = word.toList ++ more ∧ others = more ++ '(' :: rest := by
  rw [afterKeyword?, after?_eq_some_iff] at found
  rcases List.append_eq_append_iff.mp found with ⟨more, longer, split⟩ | ⟨more, longer, split⟩
  · cases more with
    | nil => exact ⟨[], by simpa using longer.symm, by simpa using split.symm⟩
    | cons letter more =>
        obtain ⟨rfl, _⟩ := List.cons.inj split
        have isLetter := List.all_eq_true.mp letters '(' (by simp [longer])
        exact absurd isLetter (by decide)
  · exact ⟨more, longer, split⟩

theorem continuesWord {word : String} (reserved : word ∈ reservedWords) :
    ContinuesWord word (name.value.toList ++ '(' :: rest) := by
  intro others found
  have letters := (isWord_of_mem_reserved word reserved).2
  rcases name.exists_append_of_afterKeyword? letters found with ⟨more, whole, rfl⟩
  cases more with
  | nil => exact ⟨'(', rest, rfl, rfl⟩
  | cons next more =>
      exact ⟨next, more ++ '(' :: rest, rfl, name.not_isSeparator_of_mem (by simp [whole])⟩

theorem passesWord {word : String}
    (mem : word ∈ ["default", "extends", "extend", "include"]) :
    PassesWord word (name.value.toList ++ '(' :: rest) := by
  intro others found
  have reserved : word ∈ reservedWords :=
    (by decide : ["default", "extends", "extend", "include"] ⊆ reservedWords) mem
  have letters := (isWord_of_mem_reserved word reserved).2
  rcases name.exists_append_of_afterKeyword? letters found with ⟨more, whole, rfl⟩
  have different := name.noKeyword word mem
  rw [whole, List.takeWhile_append_of_pos (List.all_eq_true.mp letters)] at different
  cases more with
  | nil => simp at different
  | cons next more =>
      cases isNext : isWord next with
      | false => simp [isNext] at different
      | true => exact ⟨next, more ++ '(' :: rest, rfl, isNext⟩

theorem keywordLine_eq_none {scanner : Scanner}
    (unread : scanner.unread = name.value.toList ++ '(' :: rest) (word : String)
    (mem : word ∈ ["yield", "block"]) (kind : TokenKind) :
    Rule.keywordLine word kind scanner = none := by
  have reserved : word ∈ reservedWords := (by decide : ["yield", "block"] ⊆ reservedWords) mem
  have letters := (isWord_of_mem_reserved word reserved).2
  refine keywordLine_eq_none_of_continues ?_ (fun others found => ?_) kind
  · rw [unread]
    exact name.continuesWord reserved
  · rw [unread] at found
    rcases name.exists_append_of_afterKeyword? letters found with ⟨more, whole, split⟩
    cases more with
    | nil => simp at split
    | cons next more =>
        obtain ⟨rfl, _⟩ := List.cons.inj split
        exact name.noLabel word mem ⟨more, by simp [whole]⟩

/-- No rule for a keyword takes a name with a bracket behind it. -/
theorem declines_of_mem_keywordSteps {scanner : Scanner}
    (unread : scanner.unread = name.value.toList ++ '(' :: rest) :
    ∀ step ∈ keywordSteps, step.Declines scanner := by
  have passes : ∀ word ∈ ["default", "extends", "extend", "include"],
      PassesWord word scanner.unread := by
    intro word mem
    rw [unread]
    exact name.passesWord mem
  have continues : ∀ word ∈ reservedWords, ContinuesWord word scanner.unread := by
    intro word reserved
    rw [unread]
    exact name.continuesWord reserved
  have noSpaces : ∀ word ∈ reservedWords, Rule.keywordSpaces? word scanner.unread = none :=
    fun word reserved => keywordSpaces?_eq_none_of_continues (continues word reserved)
  intro step mem
  cases step <;> simp [keywordSteps] at mem
  case default | inheritance | inclusion =>
      refine declines_of_words (by decide) fun word known => passes word ?_
      revert known word
      decide
  all_goals intro inner
  case yieldSlot =>
      simp [Step.rule, SimpleRule.run, name.keywordLine_eq_none unread "yield" (by decide)]
  case doctype =>
      have noDoctype : Rule.opensWith "doctype" [' ', '\n'] scanner.unread = false :=
        opensWith_eq_false_of_continues (continues _ (by decide))
          (List.all_eq_true.mp (by decide))
      simp [Step.rule, SimpleRule.run, Rule.doctype, noDoctype]
  case append =>
      simp [Step.rule, SimpleRule.run, Rule.namedBlock, Rule.blockHead?,
        noSpaces "block" (by decide), noSpaces "append" (by decide)]
  case prepend =>
      simp [Step.rule, SimpleRule.run, Rule.namedBlock, Rule.blockHead?,
        noSpaces "block" (by decide), noSpaces "prepend" (by decide)]
  case block =>
      simp [Step.rule, SimpleRule.run, Rule.namedBlock, Rule.blockHead?,
        noSpaces "block" (by decide)]
  case mixinBlock =>
      simp [Step.rule, SimpleRule.run, name.keywordLine_eq_none unread "block" (by decide)]
  case mixin => simp [Step.rule, SimpleRule.run, Rule.mixin, noSpaces "mixin" (by decide)]

theorem declines_beforeTag {scanner : Scanner}
    (unread : scanner.unread = name.value.toList ++ '(' :: rest) :
    ∀ step ∈ Step.beforeTag, step.Declines scanner := by
  rcases name.exists_eq_cons with ⟨first, more, chars, isFirst⟩
  have cons : scanner.unread = first :: (more ++ '(' :: rest) := by simp [unread, chars]
  have other {sign : Char} (noWord : isWord sign = false) : first ≠ sign :=
    ne_of_isWord isFirst noWord
  simp only [Step.beforeTag, List.forall_mem_append, List.forall_mem_cons]
  exact ⟨⟨⟨declines_of_sign rfl cons (other rfl), declines_endOfInput cons,
    declines_endInterpolation_of_ne cons (other rfl), by simp⟩,
    name.declines_of_mem_keywordSteps unread⟩, declines_of_sign rfl cons (other rfl),
    declines_of_sign rfl cons (other rfl), by simp⟩

/-- The rule for tags takes the whole name. -/
theorem tag_eq {scanner : Scanner} (unread : scanner.unread = name.value.toList ++ '(' :: rest) :
    Rule.tag scanner = some (scanner.emit (.tag name.value) name.value.toList.length) := by
  rcases name.exists_eq_cons with ⟨first, more, chars, isFirst⟩
  have cons : scanner.unread = first :: (more ++ '(' :: rest) := by simp [unread, chars]
  have run : scanner.unread.takeWhile (fun character =>
      isWordOrDash character || character == ':') = name.value.toList := by
    rw [unread, List.takeWhile_append_of_pos]
    · simp
      rfl
    · intro character mem
      simpa using name.allowed character mem
  have whole : dropEndWhile (fun character => character == '-' || character == ':')
      name.value.toList = name.value.toList := by
    unfold dropEndWhile
    cases reversed : name.value.toList.reverse with
    | nil => simp [chars] at reversed
    | cons last others =>
        have ends := name.ends last (by rw [← List.head?_reverse, reversed]; rfl)
        rw [List.dropWhile_cons_of_neg (by simp [ends]), ← reversed, List.reverse_reverse]
  unfold Rule.tag
  split
  · next found =>
      obtain ⟨rfl, rfl⟩ := List.cons.inj (cons.symm.trans found)
      simp only [isFirst, run, whole, if_true, String.ofList_toList]
  · next found => simp [cons] at found

/-- At a name with a bracket behind it the rule for tags is the first that matches. -/
theorem firstMatch_eq {scanner : Scanner}
    (unread : scanner.unread = name.value.toList ++ '(' :: rest) (inner : Scanning Unit) :
    firstMatch [] inner Step.order scanner =
      .ok () (scanner.emit (.tag name.value) name.value.toList.length) := by
  rcases Step.exists_order_eq_tag with ⟨others, order⟩
  rw [order]
  apply firstMatch_of_forall_declines (name.declines_beforeTag unread)
  simp [Step.rule, SimpleRule.run, name.tag_eq unread]

theorem noReturn : '\r' ∉ name.value.toList :=
  fun mem => name.ne_of_mem mem (by decide) (by decide) rfl

end TagName

/-! ### A list behind a bracket -/

section

variable {scanner : Scanner} {entries : List AttributeEntry} {rest : List Char}

/-- The tokens of a list. -/
def AttributeEntry.kinds (entries : List AttributeEntry) : List TokenKind :=
  .startAttributes :: (entries.map AttributeEntry.kind ++ [.endAttributes])

theorem exists_attributes_eq
    (unread : scanner.unread = '(' :: (AttributeEntry.printAll entries ++ ')' :: rest)) :
    ∃ next, Scanner.Collects { scanner with unread := rest } (AttributeEntry.kinds entries) next ∧
      Rule.attributes scanner = .ok (some next) := by
  have found : Bracket.find ')' (AttributeEntry.printAll entries ++ ')' :: rest) =
      .closed (AttributeEntry.printAll entries) rest :=
    Bracket.find_balanced (AttributeEntry.balanced_printAll entries) rfl
  have cut : scanner.bracketed ['('] ')' (AttributeEntry.printAll entries ++ ')' :: rest) =
      .ok (AttributeEntry.printAll entries, rest) := by
    rw [Scanner.bracketed, found]
  rcases exists_attributeEntries_eq entries
    { (scanner.right 1).push .startAttributes scanner.position with unread := rest }
    (AttributeEntry.length_le_length_printAll entries) with ⟨filled, collects, read⟩
  have opened : Scanner.Collects { scanner with unread := rest } [.startAttributes]
      { (scanner.right 1).push .startAttributes scanner.position with unread := rest } :=
    Scanner.collects_push { scanner with unread := rest } _ _ _
  have closed : filled.Collects [.endAttributes]
      ((filled.right 1).push .endAttributes filled.position) :=
    filled.collects_push _ _ _
  refine ⟨_, opened.trans (collects.trans closed), ?_⟩
  unfold Rule.attributes
  split
  · next inside others =>
      obtain rfl := (List.cons.inj (unread.symm.trans others)).2
      simp only [cut, bind, Except.bind, read]
      rfl
  · next other => exact absurd unread (other _)

/-- The steps before that for a list. -/
def Step.beforeAttributes : List Step :=
  Step.beforeTag ++ [.tag, .filter, .id, .dot, .className]

theorem Step.exists_order_eq_attributes :
    ∃ others, Step.order = Step.beforeAttributes ++ .attributes :: others :=
  ⟨_, rfl⟩

theorem declines_beforeAttributes {inside : List Char} (unread : scanner.unread = '(' :: inside) :
    ∀ step ∈ Step.beforeAttributes, step.Declines scanner := by
  have tags := declines_beforeTag unread (declines_endInterpolation_of_ne unread (by decide))
    (declines_of_sign rfl unread (by decide)) (passesWord_of_noWord (by decide)) (by decide)
    (by decide)
  simp only [Step.beforeAttributes, List.forall_mem_append, List.forall_mem_cons]
  exact ⟨tags, declines_tag unread (by decide), declines_of_sign rfl unread (by decide),
    declines_of_sign rfl unread (by decide), declines_of_sign rfl unread (by decide),
    declines_of_sign rfl unread (by decide), by simp⟩

/-- At a bracket the rule for lists is the first that matches. -/
theorem exists_firstMatch_eq
    (unread : scanner.unread = '(' :: (AttributeEntry.printAll entries ++ ')' :: rest)) :
    ∃ next, Scanner.Collects { scanner with unread := rest } (AttributeEntry.kinds entries) next ∧
      ∀ inner, firstMatch [] inner Step.order scanner = .ok () next := by
  rcases exists_attributes_eq unread with ⟨next, collects, read⟩
  refine ⟨next, collects, fun inner => ?_⟩
  rcases Step.exists_order_eq_attributes with ⟨others, order⟩
  rw [order]
  apply firstMatch_of_forall_declines (declines_beforeAttributes unread)
  simp [Step.rule, CheckedRule.run, read]

end

/-! ### A name and a list -/

/-- A name and a list behind it, as they are written. -/
def TagName.printWith (name : TagName) (entries : List AttributeEntry) : List Char :=
  name.value.toList ++ '(' :: (AttributeEntry.printAll entries ++ [')'])

theorem unread_scanner_printWith (name : TagName) (entries : List AttributeEntry)
    (following : List Char) (options : TokenOptions) :
    (options.scanner (String.ofList (name.printWith entries ++ following))).unread =
      name.value.toList ++
        '(' :: (AttributeEntry.printAll entries ++ ')' :: normalizeNewlines following) := by
  rcases name.exists_eq_cons with ⟨first, more, chars, isFirst⟩
  have noMark : first ≠ byteOrderMark := ne_of_isWord isFirst (by decide)
  have noReturn : '\r' ∉ name.printWith entries := by
    simp [TagName.printWith, name.noReturn, AttributeEntry.noReturn_printAll]
  have unmarked : dropMark (name.printWith entries ++ following) =
      name.printWith entries ++ following := by
    simp [TagName.printWith, chars, dropMark, noMark]
  simp only [TokenOptions.scanner, Scanner.ofSource, Scanner.ofText, String.toList_ofList, unmarked,
    normalizeNewlines_append noReturn]
  simp [TagName.printWith]

/-- A printed list of attributes behind a name is read as the tag and the entries of the list, and
the run goes on at the first character behind the list. -/
theorem exists_run_printWith (name : TagName) (entries : List AttributeEntry)
    (following : List Char) (options : TokenOptions) :
    ∃ next, Scanner.Collects
        { options.scanner (String.ofList (name.printWith entries ++ following)) with
          unread := normalizeNewlines following }
        (.tag name.value :: AttributeEntry.kinds entries) next ∧
      ∀ budget,
        run [] (budget + 2)
            (options.scanner (String.ofList (name.printWith entries ++ following))) =
          run [] budget next := by
  have unread := unread_scanner_printWith name entries following options
  generalize isStart : options.scanner _ = start at unread ⊢
  have running : start.ended = false := by rw [← isStart]; rfl
  have unreadBehind : (start.emit (.tag name.value) name.value.toList.length).unread =
      '(' :: (AttributeEntry.printAll entries ++ ')' :: normalizeNewlines following) := by
    simp [Scanner.emit, Scanner.push, Scanner.right, Scanner.drop, unread]
  rcases exists_firstMatch_eq unreadBehind with ⟨next, collects, read⟩
  have tagged : Scanner.Collects { start with unread := normalizeNewlines following }
      [.tag name.value] { start.emit (.tag name.value) name.value.toList.length with
        unread := normalizeNewlines following } :=
    Scanner.collects_push { start with unread := normalizeNewlines following } _ _ _
  refine ⟨next, tagged.trans collects, fun budget => ?_⟩
  rw [Scanner.run_eq_of_firstMatch running (name.firstMatch_eq unread _)]
  exact Scanner.run_eq_of_firstMatch running (read _)

/-- A name with a dash and a colon. -/
def prefixedTag : TagName where
  value := "my-svg:a"
  begins := ⟨'m', rfl, rfl⟩
  allowed := by
    have checked : "my-svg:a".toList.all (fun character =>
        isWordOrDash character || character == ':') = true := by decide
    simpa only [Bool.or_eq_true, beq_iff_eq] using List.all_eq_true.mp checked
  ends := by
    rintro last ⟨⟩
    decide
  noKeyword := by decide
  noLabel := by decide

/-- A value full of quotes, backslashes and brackets that do not match, on two lines, and an
attribute without a value. -/
def awkwardEntries : List AttributeEntry :=
  [{ name := "data-a"
     value := .text "\"\\)]\x7b(\x27\n \\\\\" b=1, "
     nonempty := by decide
     allowed := List.all_eq_true.mp (by decide)
     noBracket := by simp
     noReturn := by rintro text ⟨⟩; simp },
   { name := "@on.click"
     value := .present
     nonempty := by decide
     allowed := List.all_eq_true.mp (by decide)
     noBracket := by simp
     noReturn := by rintro text ⟨⟩ }]

theorem exists_run_printWith_awkward :
    ∃ next : Scanner,
      next.kinds = [.tag "my-svg:a", .startAttributes,
        .attributeEntry "data-a" (.text "\"\\)]\x7b(\x27\n \\\\\" b=1, "),
        .attributeEntry "@on.click" .present, .endAttributes] ∧
      next.unread = " x)\n\"y".toList ∧
      ∀ budget,
        run [] (budget + 2) (TokenOptions.scanner {}
          "my-svg:a(data-a=\"\\\"\\\\)]\x7b(\x27\n \\\\\\\\\\\" b=1, \" @on.click) x)\r\n\"y") =
            run [] budget next := by
  have printed : String.ofList (prefixedTag.printWith awkwardEntries ++ " x)\r\n\"y".toList) =
      "my-svg:a(data-a=\"\\\"\\\\)]\x7b(\x27\n \\\\\\\\\\\" b=1, \" @on.click) x)\r\n\"y" := by
    decide
  rcases exists_run_printWith prefixedTag awkwardEntries " x)\r\n\"y".toList {} with
    ⟨next, collects, runs⟩
  rw [printed] at runs
  exact ⟨next, collects.kinds, collects.unread, runs⟩

end Offside
