import Offside.Proofs.Progress.Run
import Offside.Proofs.TextBlock.Nodes

/-!
# Text blocks are taken verbatim

Behind a dot at the end of a line, a comment or a filter the lines that are indented deeper are
taken as they are, without the indentation that they share, in whatever order deeper and shallower
ones come. In the block of a filter there are no interpolations, and the filter gets its lines.
-/

namespace Offside

open Computing Grammar Relation Scanner Text

/-- A result with the token that ends a text block. -/
def endBlock : EStateM.Result (Diagnostic TokenFault) Scanner Unit →
    EStateM.Result (Diagnostic TokenFault) Scanner Unit
  | .ok _ scanner => .ok () (scanner.pushHere .endTextBlock)
  | .error fault scanner => .error fault scanner

/-- The step of a scanner that an announcement stands at reads the announcement and some texts,
which are the lines of a block, and leaves the lines behind them. -/
structure ReadsBlock (inner : Scanning Unit) (scanner announced : Scanner) (unit : IndentUnit)
    (texts behind : List (List Char)) : Prop where
  /-- The texts are read in their order, with newline tokens between them; if one of them has a
  fault, so has the block. -/
  reads : ∃ opened result,
    Collects { announced with unread := unlines behind, unit := some unit } [.startTextBlock]
      opened ∧
    ReadsTexts inner [] texts opened result ∧
    firstMatch [] inner Step.order scanner = endBlock result
  /-- Inside an interpolated tag a text could hold the bracket that closes the tag. -/
  leaves : scanner.interpolated = false → ∀ after,
    firstMatch [] inner Step.order scanner = .ok () after → after.unread = unlines behind
  /-- Texts without interpolations are one token each. -/
  plain : (∀ text ∈ texts, findMarker scanner.interpolated announced.markersAllowed text = none) →
    ∃ after, firstMatch [] inner Step.order scanner = .ok () after ∧
      Collects { announced with unread := unlines behind, unit := some unit } (blockKinds texts)
        after

/-- A filter has some texts for its block, whatever they hold, and is applied to them, with
newlines between them. -/
structure FiltersBlock (inner : Scanning Unit) (scanner announced : Scanner) (unit : IndentUnit)
    (texts behind : List (List Char)) (name : String) : Prop where
  tokens : ∃ after, firstMatch [] inner Step.order scanner = .ok () after ∧
    Collects { announced with unread := unlines behind, unit := some unit } (blockKinds texts)
      after
  applied : ∀ (hooks : Hooks) (grammar : Grammar) (span : Span) (budget : Nat)
    (found : List Attribute) (stream middle : TokenStream) (following : List TokenKind),
    attributesIfAny budget stream = .ok found middle →
    middle.pending.map Token.kind = blockKinds texts ++ following →
    (blockKinds texts).length ≤ budget →
    ∃ node rest, Grammar.filter hooks grammar (budget + 1) name span stream = .ok node rest ∧
      rest.pending.map Token.kind = following ∧
      ∀ set : FilterSet, set.applyToNode node = (do
        Filtering.count 1
        let text ← set.applyToText name found (blockText texts) span.file span
        return .leaf span (.text text false))

section

variable {inner : Scanning Unit} {scanner announced : Scanner} {unit : IndentUnit} {level : Nat}
  {first : List Char} {others : List (List Char)}

/-- Once it is known which lines a block takes, reading it is reading their texts. -/
theorem bind_eq_endBlock {action : Scanning Bool} {width : Nat} {block : List BlockLine}
    {behind : List (List Char)} {start measured : Scanner}
    (taken : action start = takeRows inner width block behind measured) :
    (do let _ ← action) start =
      endBlock (addLines inner width true (if behind.isEmpty then dropEmptyEnd block else block)
        { measured.pushHere .startTextBlock with unread := unlines behind }) := by
  generalize isOpened : { measured.pushHere .startTextBlock with unread := unlines behind } = opened
  have begins : takeRows inner width block behind measured =
      (do
        addLines inner width true (if behind.isEmpty then dropEmptyEnd block else block)
        modify (·.pushHere .endTextBlock)
        return true : Scanning Bool) opened := isOpened ▸ rfl
  simp only [bind, EStateM.bind, taken, begins]
  cases addLines inner width true (if behind.isEmpty then dropEmptyEnd block else block) opened <;>
    rfl

theorem findMarker_false (text : List Char) : findMarker false false text = none := by
  induction text with
  | nil => rfl
  | cons character rest ih => simp [findMarker, ih]

/-! ### The block -/

variable {kind : TokenKind} {rest : List Char}

/-- Behind an announcement the texts of the lines of the block are read. -/
theorem exists_firstMatch_eq_endBlock (inner : Scanning Unit)
    (announces : scanner.Announces kind announced)
    (unread : announced.unread = '\n' :: rest)
    (follows : (lines rest).dropWhile isBlankRow = first :: others)
    (solid : ∀ row ∈ first :: others, isBlankRow row = false → isBlank row = false)
    (isUnit : announced.unitAt first = unit) (deeper : announced.top < indentWidth unit first) :
    ∃ opened result,
      Collects { announced with
        unread := unlines (rowsBehind unit announced.top (first :: others))
        unit := some unit } [.startTextBlock] opened ∧
      ReadsTexts inner [] (blockTexts unit announced.top (first :: others)) opened result ∧
      firstMatch [] inner Step.order scanner = endBlock result := by
  rcases exists_textBlockStep_eq inner unread follows solid isUnit deeper rfl
    with ⟨measured, measures, taken⟩
  have stepped := (firstMatch_of_announces announces).trans (bind_eq_endBlock taken)
  rw [← map_text_eq_blockTexts]
  have pushed := measures.trans (collects_push measured .startTextBlock measured.position
    measured.position)
  refine ⟨_, _, ?_, readsTexts_addLines inner _ true _ _, stepped⟩
  exact ⟨pushed.kinds, rfl, pushed.interpolated, pushed.allowed, pushed.ended, pushed.levels,
    pushed.unit⟩

theorem readsBlock (inner : Scanning Unit) (announces : scanner.Announces kind announced)
    (unread : announced.unread = '\n' :: rest)
    (follows : (lines rest).dropWhile isBlankRow = first :: others)
    (solid : ∀ row ∈ first :: others, isBlankRow row = false → isBlank row = false)
    (isUnit : scanner.unitAt first = unit) (deeper : scanner.top < indentWidth unit first) :
    ReadsBlock inner scanner announced unit (blockTexts unit scanner.top (first :: others))
      (rowsBehind unit scanner.top (first :: others)) := by
  rcases announces.exists_collects with ⟨_, announcement⟩
  have sameTop : scanner.top = announced.top := by
    rw [Scanner.top, Scanner.top, announcement.levels]
  have sameUnit : announced.unitAt first = unit := by
    rw [← isUnit, Scanner.unitAt, Scanner.unitAt, announcement.unit]
  have sameInside : announced.interpolated = scanner.interpolated := announcement.interpolated
  have solidFirst := isBlankRow_eq_false_of_dropWhile_eq follows
  have someText := blockTexts_ne_nil solidFirst deeper others
  rw [sameTop] at deeper someText ⊢
  have reads := exists_firstMatch_eq_endBlock inner announces unread follows solid sameUnit deeper
  refine ⟨reads, ?_, ?_⟩
  all_goals rcases reads with ⟨opened, result, opens, readsTexts, stepped⟩
  · intro outside after done
    rw [stepped] at done
    cases result with
    | ok _ closed =>
        cases done
        have outsideOpened := opens.interpolated.trans (sameInside.trans outside)
        rcases readsTexts.exists_collects_of_ok outsideOpened with ⟨_, read⟩
        exact read.unread.trans opens.unread
    | error => cases done
  · intro plain
    have plainOpened : ∀ text ∈ blockTexts unit announced.top (first :: others),
        findMarker opened.interpolated opened.markersAllowed text = none := by
      rw [opens.interpolated, opens.allowed, sameInside]
      exact plain
    rcases readsTexts.exists_collects plainOpened someText with ⟨closed, rfl, read⟩
    have ends := collects_push closed .endTextBlock closed.position closed.position
    exact ⟨_, stepped, (opens.trans read).trans ends⟩

theorem readsBlock_and_filtersBlock (inner : Scanning Unit)
    (announces : scanner.Announces kind announced)
    (unread : announced.unread = '\n' :: rest)
    (follows : (lines rest).dropWhile isBlankRow = first :: others)
    (solid : ∀ row ∈ first :: others, isBlankRow row = false → isBlank row = false)
    (deeper : scanner.top < indentWidth (scanner.unitAt first) first) :
    let unit := scanner.unitAt first
    let texts := blockTexts unit scanner.top (first :: others)
    let behind := rowsBehind unit scanner.top (first :: others)
    ReadsBlock inner scanner announced unit texts behind ∧
      ∀ name, kind = .filter name → scanner.interpolated = false →
        FiltersBlock inner scanner announced unit texts behind name := by
  intro unit texts behind
  have reads : ReadsBlock inner scanner announced unit texts behind :=
    readsBlock inner announces unread follows solid rfl deeper
  refine ⟨reads, ?_⟩
  rintro name rfl outside
  have hidden : announced.markersAllowed = false := by
    cases announces
    rfl
  refine ⟨reads.plain fun text _ => ?_, fun hooks grammar span budget found stream middle following
    listed pending enough => exists_filter_eq hooks grammar name span listed pending enough⟩
  rw [outside, hidden]
  exact findMarker_false text

/-- A run over a source that comes to an announcement reads the block behind it next, and goes on
with the lines behind the block. If the source has tokens, then these are the ones found so far, the
announcement, the block and the ones found later; and texts without interpolations, as are all in
the block of a filter, are one token each. -/
theorem exists_tokens_of_block {source : String} {file : Option String} {start : Position}
    {events after : Array Event} {tokens : Array Token}
    (reaches : ReflTransGen Advances
      { TokenOptions.scanner { file, start } source with events := events } scanner)
    (running : scanner.ended = false) (announces : scanner.Announces kind announced)
    (unread : announced.unread = '\n' :: rest)
    (follows : (lines rest).dropWhile isBlankRow = first :: others)
    (solid : ∀ row ∈ first :: others, isBlankRow row = false → isBlank row = false)
    (isUnit : scanner.unitAt first = unit) (deeper : scanner.top < indentWidth unit first)
    (done : tokenize source { file, start } events = .ok tokens after) :
    let texts := blockTexts unit scanner.top (first :: others)
    let behind := rowsBehind unit scanner.top (first :: others)
    ∃ (opened read : Scanner) (later : List Token),
      Collects { announced with unread := unlines behind, unit := some unit } [.startTextBlock]
        opened ∧
      ReadsTexts (runAll []) [] texts opened (.ok () read) ∧
      read.unread = unlines behind ∧
      Advances scanner (read.pushHere .endTextBlock) ∧
      tokens.toList = (read.pushHere .endTextBlock).found.reverse ++ later ∧
      ((∃ name, kind = .filter name) ∨
          (∀ text ∈ texts, findMarker false announced.markersAllowed text = none) →
        tokens.toList.map Token.kind =
          announced.kinds ++ blockKinds texts ++ later.map Token.kind) := by
  intro texts behind
  have block := readsBlock (runAll []) announces unread follows solid isUnit deeper
  rcases block.reads with ⟨opened, result, opens, readsTexts, stepped⟩
  have outside := (amongLines_of_source reaches running).outside
  have ran := done
  unfold tokenize at ran
  dsimp only at ran
  rw [runAll_eq_of_reaches reaches, runAll_eq running] at ran
  cases result with
  | error fault stopped =>
      rw [bind_of_error stepped] at ran
      cases ran
  | ok _ read =>
      have stepped : firstMatch [] (runAll []) Step.order scanner =
          .ok () (read.pushHere .endTextBlock) := stepped
      have advances : Advances scanner (read.pushHere .endTextBlock) := ⟨running, stepped⟩
      rcases exists_tokens_of_reaches (reaches.tail advances) done with ⟨later, found⟩
      have left := block.leaves outside (read.pushHere .endTextBlock) stepped
      refine ⟨opened, read, later, opens, readsTexts, left, advances, found, fun literal => ?_⟩
      have plain : ∀ text ∈ texts,
          findMarker scanner.interpolated announced.markersAllowed text = none := by
        rw [outside]
        rcases literal with ⟨name, rfl⟩ | plain
        · cases announces
          exact fun text _ => findMarker_false text
        · exact plain
      rcases block.plain plain with ⟨closed, same, collects⟩
      cases stepped.symm.trans same
      rw [found, List.map_append]
      exact congrArg (· ++ later.map Token.kind) collects.kinds

end

/-- A filter one level deep. A line of its block is indented less than the first one, and another
one looks like an interpolation. -/
def raggedFilter : Scanner :=
  { Scanner.ofText none false ⟨2, 3⟩
      (":md\n\n      a #\x7bb\x7d\n    c\n \n  end".toList) with
    levels := [2]
    unit := some .space }

/-- The scanner behind the name of the filter. -/
def behindRaggedFilter : Scanner :=
  { raggedFilter.emit (.filter (String.ofList ['m', 'd'])) 3 with markersAllowed := false }

theorem readsBlock_and_filtersBlock_ragged :
    ReadsBlock (pure ()) raggedFilter behindRaggedFilter .space
        ["  a #\x7bb\x7d".toList, "c".toList, []] ["  end".toList] ∧
      FiltersBlock (pure ()) raggedFilter behindRaggedFilter .space
        ["  a #\x7bb\x7d".toList, "c".toList, []] ["  end".toList] (String.ofList ['m', 'd']) := by
  have announces : raggedFilter.Announces (.filter (String.ofList ['m', 'd']))
      behindRaggedFilter :=
    @Announces.filter raggedFilter ("md\n\n      a #\x7bb\x7d\n    c\n \n  end".toList)
      ['m', 'd'] 2 false _ rfl (by decide) rfl
  have unread : behindRaggedFilter.unread =
      '\n' :: ("\n      a #\x7bb\x7d\n    c\n \n  end".toList) := rfl
  have follows : (lines ("\n      a #\x7bb\x7d\n    c\n \n  end".toList)).dropWhile isBlankRow =
      "      a #\x7bb\x7d".toList :: ["    c".toList, " ".toList, "  end".toList] := by decide
  have texts : blockTexts .space 2
      ("      a #\x7bb\x7d".toList :: ["    c".toList, " ".toList, "  end".toList]) =
        ["  a #\x7bb\x7d".toList, "c".toList, []] := by decide
  have behind : rowsBehind .space 2
      ("      a #\x7bb\x7d".toList :: ["    c".toList, " ".toList, "  end".toList]) =
        ["  end".toList] := by decide
  have solid : ("      a #\x7bb\x7d".toList :: ["    c".toList, " ".toList, "  end".toList]).all
      (fun row => isBlankRow row || !isBlank row) = true := by decide
  have block := readsBlock_and_filtersBlock (pure ()) announces unread follows
    (fun row mem noBlank => by simpa [noBlank] using List.all_eq_true.mp solid row mem) (by decide)
  have unit : raggedFilter.unitAt "      a #\x7bb\x7d".toList = .space := rfl
  have level : raggedFilter.top = 2 := rfl
  simp only [unit, level, texts, behind] at block
  exact ⟨block.1, block.2 _ rfl rfl⟩

end Offside
