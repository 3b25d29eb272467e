import Offside.Proofs.Arguments.Items
import Offside.Proofs.Brackets.Region
import Offside.Proofs.Layout.Tokens

/-!
# Reading declarations and calls

A declaration of a mixin with its parameters and a call with literals as its arguments are read as
one token each, which holds the text between the brackets. What is between the brackets of a call
begins with a quote, if with anything, and so does not look like attributes.
-/

namespace Offside

open Computing Text Html

/-- The name of a mixin. -/
structure MixinName where
  value : String
  nonempty : value ≠ ""
  allowed : ∀ character ∈ value.toList, isWordOrDash character = true

/-- A text and the quote in which it is written as an argument. -/
structure LiteralArgument where
  value : String
  quote : Char
  isMark : isQuoteMark quote = true
  noReturn : '\r' ∉ value.toList

namespace LiteralArgument

/-- The argument as it is written. -/
def print (argument : LiteralArgument) : List Char :=
  quoteText argument.quote argument.value.toList

/-- Arguments as they are written between the brackets of a call. -/
def printAll (arguments : List LiteralArgument) : List Char :=
  joinItems (arguments.map print)

variable (argument : LiteralArgument) (arguments : List LiteralArgument)

theorem isItem : IsItem argument.print :=
  isItem_quoteText argument.isMark _

theorem listItems_printAll : listItems (printAll arguments) = arguments.map print := by
  apply listItems_joinItems
  simp [isItem]

theorem balanced_printAll : Bracket.Balanced (printAll arguments) := by
  induction arguments with
  | nil => exact .nil
  | cons argument rest ih =>
      cases rest with
      | nil => simpa [printAll, joinItems, print] using
          Bracket.Balanced.nil.quoteText argument.isMark argument.value.toList
      | cons next rest =>
          have separated := ih.plain [',', ' '] (List.all_eq_true.mp (by decide))
          have behind := separated.quoteText argument.isMark argument.value.toList
          simpa [printAll, joinItems, print, List.intercalate_cons_cons] using behind

theorem noReturn_printAll : '\r' ∉ printAll arguments := by
  intro mem
  rcases mem_of_mem_joinItems mem with same | same | ⟨item, known, mem⟩
  · cases same
  · cases same
  · rcases List.mem_map.mp known with ⟨argument, _, rfl⟩
    rcases mem_of_mem_quoteText mem with same | same | mem
    · have isMark := argument.isMark
      simp [← same, isQuoteMark] at isMark
    · cases same
    · exact argument.noReturn mem

/-- Literals begin with a quote and not with a name, so they are not taken for attributes. -/
theorem looksLikeAttributes_printAll : Rule.looksLikeAttributes (printAll arguments) = false := by
  cases arguments with
  | nil => rfl
  | cons argument rest =>
      rcases (by cases rest <;> simp [printAll, joinItems, print, quoteText,
        List.intercalate_cons_cons] :
        ∃ others, printAll (argument :: rest) = argument.quote :: others) with ⟨others, begins⟩
      have marks : argument.quote = '\x27' ∨ argument.quote = '\x22' := by
        simpa [isQuoteMark] using argument.isMark
      have solid : isWhitespace argument.quote = false := by
        rcases marks with same | same <;> rw [same] <;> decide
      have noName : isWordOrDash argument.quote = false := by
        rcases marks with same | same <;> rw [same] <;> decide
      simp [Rule.looksLikeAttributes, begins, trimStart, solid, noName]

end LiteralArgument

namespace MixinName

variable (name : MixinName)

theorem ne_of_mem {character other : Char} (mem : character ∈ name.value.toList)
    (unfit : isWordOrDash other = false) : character ≠ other := by
  rintro rfl
  simp [name.allowed character mem] at unfit

theorem noReturn : '\r' ∉ name.value.toList :=
  fun mem => name.ne_of_mem mem (by decide) rfl

theorem exists_eq_cons : ∃ first rest, name.value.toList = first :: rest :=
  List.exists_cons_of_ne_nil (mt String.toList_eq_nil_iff.mp name.nonempty)

theorem isEmpty_toList : name.value.toList.isEmpty = false := by
  rcases name.exists_eq_cons with ⟨first, rest, chars⟩
  rw [chars, List.isEmpty_cons]

variable (inside : List Char)

theorem takeWhile_append : (name.value.toList ++ '(' :: inside).takeWhile isWordOrDash =
    name.value.toList := by
  rw [List.takeWhile_append_of_pos name.allowed, List.takeWhile_cons_of_neg (by decide),
    List.append_nil]

theorem takeWhile_isIndentation_append :
    (name.value.toList ++ '(' :: inside).takeWhile isIndentation = [] := by
  rcases name.exists_eq_cons with ⟨first, rest, chars⟩
  have mem : first ∈ name.value.toList := by simp [chars]
  have space := name.ne_of_mem mem (by decide : isWordOrDash ' ' = false)
  have tab := name.ne_of_mem mem (by decide : isWordOrDash '\t' = false)
  simp [chars, isIndentation, space, tab]

theorem dropWhile_isIndentation_append :
    (name.value.toList ++ '(' :: inside).dropWhile isIndentation =
      name.value.toList ++ '(' :: inside := by
  have parts :=
    @List.takeWhile_append_dropWhile _ isIndentation (name.value.toList ++ '(' :: inside)
  rwa [name.takeWhile_isIndentation_append, List.nil_append] at parts

end MixinName

/-- One step reads a text as a token, which begins here. -/
structure Scanner.ReadsToken (scanner : Scanner) (text : List Char) (kind : TokenKind)
    (next : Scanner) : Prop where
  steps : scanner.StepsTo next
  found : ∃ stop, next.found = ⟨kind, scanner.span, stop⟩ :: scanner.found
  unread : scanner.unread = text ++ next.unread

/-! ### Calls -/

/-- A call as it is written. -/
def printCall (name : MixinName) (arguments : List LiteralArgument) : List Char :=
  '+' :: (name.value.toList ++ '(' :: (LiteralArgument.printAll arguments ++ [')']))

theorem noReturn_printCall (name : MixinName) (arguments : List LiteralArgument) :
    '\r' ∉ printCall name arguments := by
  simp [printCall, name.noReturn, LiteralArgument.noReturn_printAll]

/-- The token of a call. -/
def callKind (name : MixinName) (arguments : List LiteralArgument) : TokenKind :=
  .call name.value (some (String.ofList (LiteralArgument.printAll arguments)))

section

variable {name : MixinName} {arguments : List LiteralArgument} {scanner : Scanner}
variable {rest : List Char}

theorem exists_call_eq (unread : scanner.unread = printCall name arguments ++ rest) :
    ∃ stop, Rule.call scanner = .ok (some
      ({ scanner with unread := rest, position := stop }.push (callKind name arguments)
        scanner.position)) := by
  have whole : scanner.unread =
      '+' :: (name.value.toList ++ '(' :: (LiteralArgument.printAll arguments ++ ')' :: rest)) := by
    simp [unread, printCall]
  have found : Bracket.find ')' (LiteralArgument.printAll arguments ++ ')' :: rest) =
      .closed (LiteralArgument.printAll arguments) rest :=
    Bracket.find_balanced (LiteralArgument.balanced_printAll arguments) rfl
  have noSpace : ('(' == ' ') = false := rfl
  unfold Rule.call
  split
  · next others isOthers =>
      obtain rfl := (List.cons.inj (whole.symm.trans isOthers)).2
      simp only [name.takeWhile_isIndentation_append, name.dropWhile_isIndentation_append,
        name.takeWhile_append, name.isEmpty_toList, List.drop_left, List.takeWhile_cons,
        List.dropWhile_cons, noSpace, Scanner.bracketed, found, bind, Except.bind,
        LiteralArgument.looksLikeAttributes_printAll, String.ofList_toList, Bool.false_eq_true,
        if_false, Scanner.push, Scanner.right, Scanner.past]
      exact ⟨_, rfl⟩
  · next other => exact absurd whole (other _)

/-- The steps before that for a call. -/
def Step.beforeCall : List Step :=
  [.blank, .endOfInput, .endInterpolation] ++ keywordSteps

theorem Step.exists_order_eq_call : ∃ others, Step.order = Step.beforeCall ++ .call :: others :=
  ⟨_, rfl⟩

/-- At a call with literals one step reads the call, with its arguments. -/
theorem exists_readsToken_call (running : scanner.ended = false)
    (unread : scanner.unread = printCall name arguments ++ rest) :
    ∃ next, scanner.ReadsToken (printCall name arguments) (callKind name arguments) next := by
  rcases exists_call_eq unread with ⟨stop, read⟩
  have cons : scanner.unread = '+' :: (name.value.toList ++
      '(' :: (LiteralArgument.printAll arguments ++ [')']) ++ rest) := unread
  have declines : ∀ step ∈ Step.beforeCall, step.Declines scanner := by
    have keywords := declines_of_mem_keywordSteps (cons ▸ passesWord_of_noWord (by decide))
    simp only [Step.beforeCall, List.forall_mem_append, List.forall_mem_cons]
    exact ⟨⟨declines_of_sign rfl cons (by decide), declines_endOfInput cons,
      declines_endInterpolation_of_ne cons (by decide), by simp⟩, keywords⟩
  refine ⟨{ scanner with unread := rest, position := stop }.push (callKind name arguments)
    scanner.position, ⟨running, fun inner => ?_, fun _ => ?_⟩, ⟨stop, rfl⟩, unread⟩
  · rcases Step.exists_order_eq_call with ⟨others, order⟩
    rw [order]
    apply firstMatch_of_forall_declines declines
    simp only [Step.rule, CheckedRule.run, read]
  · rw [cons, List.length_cons, List.length_append]
    exact Nat.lt_succ_of_le (Nat.le_add_left ..)

end

/-! ### Declarations -/

/-- Parameters as they are written between the brackets of a declaration. -/
def printParameters (parameters : List VariableName) : List Char :=
  joinItems (parameters.map (·.value.toList))

/-- The line of a declaration as it is written. -/
def printDeclaration (name : MixinName) (parameters : List VariableName) : List Char :=
  "mixin ".toList ++ (name.value.toList ++ '(' :: (printParameters parameters ++ [')']))

/-- The equation by itself: deriving it anew from the definition opens the keyword's string. -/
theorem printDeclaration_eq (name : MixinName) (parameters : List VariableName) :
    printDeclaration name parameters =
      "mixin ".toList ++ (name.value.toList ++ '(' :: (printParameters parameters ++ [')'])) :=
  rfl

/-- The token of a declaration. -/
def declarationKind (name : MixinName) (parameters : List VariableName) : TokenKind :=
  .mixin name.value (some (String.ofList (printParameters parameters)))

theorem listItems_printParameters (parameters : List VariableName) :
    listItems (printParameters parameters) = parameters.map (·.value.toList) := by
  apply listItems_joinItems
  simp [VariableName.isItem]

theorem notMem_printParameters (parameters : List VariableName) {other : Char}
    (noLetter : isAlphanumeric other = false) (noSign : other ∉ ['_', '$', '-', ',', ' ']) :
    other ∉ printParameters parameters := by
  simp only [List.mem_cons, List.not_mem_nil, or_false, not_or] at noSign
  rcases noSign with ⟨underscore, dollar, dash, comma, space⟩
  intro mem
  rcases mem_of_mem_joinItems mem with same | same | ⟨item, known, mem⟩
  · exact comma same
  · exact space same
  · rcases List.mem_map.mp known with ⟨parameter, _, rfl⟩
    exact parameter.ne_of_mem mem noLetter (by simp [underscore, dollar, dash]) rfl

theorem noReturn_printDeclaration (name : MixinName) (parameters : List VariableName) :
    '\r' ∉ printDeclaration name parameters := by
  have noParameter := notMem_printParameters parameters
    (by decide +kernel : isAlphanumeric '\r' = false) (by decide)
  simp [printDeclaration_eq, name.noReturn, noParameter]

theorem splitLast?_append {separator : Char} {front back : List Char} (noMore : separator ∉ back) :
    splitLast? separator (front ++ separator :: back) = some (front, back) := by
  have none : splitLast? separator back = none := by
    induction back with
    | nil => rfl
    | cons character others ih =>
        rw [List.mem_cons, not_or] at noMore
        simp [splitLast?, ih noMore.2, Ne.symm noMore.1]
  induction front with
  | nil => simp [splitLast?, none]
  | cons character others ih => simp [splitLast?, ih]

section

variable {name : MixinName} {parameters : List VariableName} {scanner : Scanner} {rest : List Char}

theorem keywordSpaces?_declaration (inside : List Char) :
    Rule.keywordSpaces? "mixin" ("mixin ".toList ++ (name.value.toList ++ '(' :: inside)) =
      some ("mixin ".toList, name.value.toList ++ '(' :: inside) := by
  rcases name.exists_eq_cons with ⟨first, others, chars⟩
  have mem : first ∈ name.value.toList := by simp [chars]
  have space := name.ne_of_mem mem (by decide : isWordOrDash ' ' = false)
  have found : afterKeyword? "mixin" ("mixin ".toList ++ (name.value.toList ++ '(' :: inside)) =
      some (' ' :: (name.value.toList ++ '(' :: inside)) := by
    rw [afterKeyword?, after?_eq_some_iff]
    rfl
  have joined : "mixin".toList ++ [' '] = "mixin ".toList := rfl
  rw [Rule.keywordSpaces?, found]
  simp only [Option.bind_eq_bind, Option.bind_some, chars, List.cons_append,
    List.takeWhile_cons, List.dropWhile_cons, beq_self_eq_true, if_true, beq_iff_eq, space,
    if_false, List.isEmpty_cons, Bool.false_eq_true, joined]

theorem takeWhile_isSpace_of_endsLine (ends : EndsLine rest) :
    rest.takeWhile (· == ' ') = [] := by
  cases rest with
  | nil => rfl
  | cons next others =>
      obtain rfl := ends next rfl
      rfl

theorem mixin_eq (unread : scanner.unread = printDeclaration name parameters ++ rest)
    (ends : EndsLine rest) :
    Rule.mixin scanner = some (scanner.emit (declarationKind name parameters)
      (printDeclaration name parameters).length) := by
  have whole : scanner.unread = "mixin ".toList ++
      (name.value.toList ++ '(' :: (printParameters parameters ++ ')' :: rest)) := by
    simp [unread, printDeclaration_eq]
  have oneLine : '\n' ∉ '(' :: (printParameters parameters ++ [')']) := by
    have noNewline := notMem_printParameters parameters
      (by decide +kernel : isAlphanumeric '\n' = false) (by decide)
    simp [noNewline]
  have line : firstLine ('(' :: (printParameters parameters ++ ')' :: rest)) =
      '(' :: (printParameters parameters ++ [')']) := by
    have first := firstLine_append oneLine ends
    simpa using first
  have split : splitLast? ')' (printParameters parameters ++ [')']) =
      some (printParameters parameters, []) :=
    splitLast?_append (by simp)
  have noTrailing := takeWhile_isSpace_of_endsLine ends
  have noSpace : ('(' == ' ') = false := rfl
  unfold Rule.mixin
  rw [whole, keywordSpaces?_declaration]
  simp only [Option.bind_eq_bind, Option.bind_some, name.takeWhile_append, name.isEmpty_toList,
    List.drop_left, line, List.takeWhile_cons, List.dropWhile_cons, noSpace, Bool.false_eq_true,
    if_false, split, Option.map_some, String.ofList_toList]
  have behind : ('(' :: (printParameters parameters ++ ')' :: rest)).drop
      (([] : List Char).length + (printParameters parameters).length + 2) = rest := by
    have count : ([] : List Char).length + (printParameters parameters).length + 2 =
        ('(' :: (printParameters parameters ++ [')'])).length := by
      simp
    have dropped := @List.drop_left _ ('(' :: (printParameters parameters ++ [')'])) rest
    rw [count]
    simpa only [List.cons_append, List.append_assoc, List.nil_append] using dropped
  have length : "mixin ".toList.length + name.value.toList.length +
      (([] : List Char).length + (printParameters parameters).length + 2) =
      (printDeclaration name parameters).length := by
    simp [printDeclaration_eq]
    omega
  rw [behind, noTrailing, length]
  rfl

/-- The steps before that for a declaration. -/
def Step.beforeMixin : List Step :=
  [.blank, .endOfInput, .endInterpolation] ++ keywordSteps.take 9

theorem Step.exists_order_eq_mixin : ∃ others, Step.order = Step.beforeMixin ++ .mixin :: others :=
  ⟨_, rfl⟩

/-- At a declaration one step reads the declaration, with its parameters. -/
theorem exists_readsToken_declaration (running : scanner.ended = false)
    (unread : scanner.unread = printDeclaration name parameters ++ rest) (ends : EndsLine rest) :
    ∃ next, scanner.ReadsToken (printDeclaration name parameters)
      (declarationKind name parameters) next := by
  have cons : scanner.unread = 'm' :: ("ixin ".toList ++
      (name.value.toList ++ '(' :: (printParameters parameters ++ [')'])) ++ rest) := unread
  have declines : ∀ step ∈ Step.beforeMixin, step.Declines scanner := by
    have keywords : ∀ step ∈ keywordSteps.take 9, step.Declines scanner := by
      intro step mem
      refine declines_of_words (List.mem_of_mem_take mem) fun word known => ?_
      rw [cons]
      apply passesWord_of_head?
      revert word
      revert step
      decide
    simp only [Step.beforeMixin, List.forall_mem_append, List.forall_mem_cons]
    exact ⟨⟨declines_of_sign rfl cons (by decide), declines_endOfInput cons,
      declines_endInterpolation_of_ne cons (by decide), by simp⟩, keywords⟩
  have behind : (scanner.emit (declarationKind name parameters)
      (printDeclaration name parameters).length).unread = rest := by
    simp [Scanner.emit, Scanner.push, Scanner.right, Scanner.drop, unread]
  refine ⟨scanner.emit (declarationKind name parameters) (printDeclaration name parameters).length,
    ⟨running, fun inner => ?_, fun _ => ?_⟩, ⟨_, rfl⟩, by rw [behind, unread]⟩
  · rcases Step.exists_order_eq_mixin with ⟨others, order⟩
    rw [order]
    apply firstMatch_of_forall_declines declines
    simp [Step.rule, SimpleRule.run, mixin_eq unread ends]
  · rw [behind, unread, List.length_append]
    simp [printDeclaration_eq]

end

end Offside
