import Offside.Proofs.Nesting.Text
import Offside.Token.TextBlock

/-!
# Text blocks

The lines of a text block stand inside its pair of tokens. A text block begins with a newline, so
that there is none inside an interpolated tag.
-/

namespace Offside

open Computing Scanner Text

variable {scanner : Scanner} {inner : Scanning Unit} {text : List Char}

/-! ### Lines -/

theorem newline_not_mem_firstLine : '\n' ∉ firstLine text := by
  intro newline
  simpa using List.mem_takeWhile_imp newline

theorem firstLine_append_drop : firstLine text ++ text.drop (firstLine text).length = text :=
  List.prefix_iff_eq_append.mp (List.takeWhile_prefix _)

theorem unlines_suffix {rows rest : List (List Char)} (suffix : rest <:+ rows) :
    unlines rest <:+ unlines rows := by
  rcases suffix with ⟨front, rfl⟩
  exact ⟨unlines front, by simp [unlines]⟩

/-- The lines of a block come from the lines that are scanned, and the others are left. -/
theorem suffix_of_takeBlock {unit : IndentUnit} {level width : Nat} {rows rest : List (List Char)}
    {block : List BlockLine} (taken : takeBlock unit level width rows = .taken block rest) :
    rest <:+ rows ∧ ∀ line ∈ block, ∃ row ∈ rows, line.text <:+ row := by
  induction rows generalizing block with
  | nil =>
      cases taken
      exact ⟨List.suffix_rfl, by simp⟩
  | cons row rows ih =>
      have more : ∀ line, line.text <:+ row →
          (takeBlock unit level width rows).cons line = .taken block rest →
          rest <:+ row :: rows ∧ ∀ line ∈ block, ∃ row' ∈ row :: rows, line.text <:+ row' := by
        intro line fromRow found
        cases scanned : takeBlock unit level width rows with
        | shallower => simp [scanned, BlockScan.cons] at found
        | taken others left =>
            simp only [scanned, BlockScan.cons, BlockScan.taken.injEq] at found
            rcases found with ⟨rfl, rfl⟩
            rcases ih scanned with ⟨suffix, sources⟩
            refine ⟨suffix.trans (List.suffix_cons row rows), ?_⟩
            rw [List.forall_mem_cons]
            refine ⟨⟨row, List.mem_cons_self, fromRow⟩, ?_⟩
            intro other inBlock
            rcases sources other inBlock with ⟨source, inRows, suffixSource⟩
            exact ⟨source, List.mem_cons_of_mem row inRows, suffixSource⟩
      unfold takeBlock at taken
      extract_lets found at taken
      split at taken
      · exact more _ (List.drop_suffix width row) taken
      · split at taken
        · exact more _ (List.drop_suffix width row) taken
        · split at taken
          · cases taken
          · cases taken
            exact ⟨List.suffix_rfl, by simp⟩

theorem mem_of_mem_dropEmptyEnd {block : List BlockLine} {line : BlockLine}
    (kept : line ∈ dropEmptyEnd block) : line ∈ block := by
  rw [dropEmptyEnd, List.mem_reverse] at kept
  exact List.mem_reverse.mp ((List.dropWhile_suffix _).subset kept)

/-- The lines of a block are lines, those at its end that are dropped or not. -/
theorem newline_not_mem_of_takeBlock {unit : IndentUnit} {level width : Nat}
    {rest : List (List Char)} {block : List BlockLine}
    (taken : takeBlock unit level width (lines text) = .taken block rest) :
    ∀ line ∈ (if rest.isEmpty then dropEmptyEnd block else block), '\n' ∉ line.text := by
  intro line kept
  have inBlock : line ∈ block := by
    split at kept
    · exact mem_of_mem_dropEmptyEnd kept
    · exact kept
  rcases (suffix_of_takeBlock taken).2 line inBlock with ⟨row, inRows, suffixRow⟩
  exact fun newline => newline_not_mem_of_mem_lines row inRows (suffixRow.subset newline)

/-! ### The tokens of a block -/

/-- Among the lines of a template every line of a block is read to its end. -/
theorem ensures_addLines (readsTag : ReadsTag inner) (outside : scanner.interpolated = false)
    {width : Nat} {first : Bool} {block : List BlockLine}
    (oneLine : ∀ line ∈ block, '\n' ∉ line.text) :
    Ensures (addLines inner width first block) scanner fun _ after =>
      Inserts .textBlock scanner after := by
  induction block generalizing scanner first with
  | nil => exact .pure .refl
  | cons line rest ih =>
      rw [List.forall_mem_cons] at oneLine
      refine .get_bind ?_
      extract_lets start inside
      have indented : Inserts .textBlock scanner inside := by
        dsimp only [inside]
        split
        · exact .of_found_eq rfl rfl rfl rfl rfl
        · exact .of_found_eq rfl rfl rfl rfl rfl
      have marked : Inserts .textBlock scanner
          (if first then inside else inside.push .newline start.position) := by
        split
        · exact indented
        · exact indented.push rfl
      have holdsText : Surrounding.textBlock.HoldsText false :=
        ⟨fun _ => rfl, fun _ _ _ => rfl, rfl⟩
      refine .set_bind ?_
      refine (ensures_addRun holdsText readsTag oneLine.1).bind ?_
      intro _ middle runs
      have added : Inserts .textBlock scanner middle :=
        marked.trans (runs.inserts (marked.interpolated.trans outside))
      have stillOutside : middle.interpolated = false := added.interpolated.trans outside
      exact (ih stillOutside oneLine.2).mono fun _ after inserts => added.trans inserts

/-- Blank lines are read up to the last newline. -/
theorem ensures_repeatBlank (budget : Nat) :
    Ensures (repeatRule (SimpleRule.run Rule.blankLine) budget) scanner fun _ after =>
      Extends scanner after ∧ (['\n'] <+: scanner.unread → ['\n'] <+: after.unread) := by
  induction budget generalizing scanner with
  | zero => exact .pure ⟨.refl, fun atLine => atLine⟩
  | succ budget ih =>
      refine Rule.ensures_blankLine.bind ?_
      rintro matched middle ⟨⟨extended, _⟩, atLine⟩
      cases matched with
      | false => exact .pure ⟨extended, atLine⟩
      | true =>
          refine ih.mono ?_
          rintro _ after ⟨further, stays⟩
          exact ⟨extended.trans further, fun starts => stays (atLine starts)⟩

theorem extends_of_measure? {width : Nat} {measured : Scanner}
    (found : scanner.measure? = some (width, measured)) :
    ['\n'] <+: measured.unread ∧ Extends scanner measured := by
  unfold Scanner.measure? at found
  split at found
  · next rest unread =>
      have atLine : ['\n'] <+: scanner.unread := unread ▸ List.prefix_append ['\n'] rest
      split at found
      · cases found
        exact ⟨atLine, .refl⟩
      · dsimp only at found
        split at found
        · cases found
          exact ⟨atLine, .of_found_eq rfl rfl rfl rfl List.suffix_rfl⟩
        · split at found
          · cases found
            exact ⟨atLine, .of_found_eq rfl rfl rfl rfl List.suffix_rfl⟩
          · cases found
            exact ⟨atLine, .refl⟩
  · cases found

theorem measure?_ne_none (atLine : ['\n'] <+: scanner.unread) : scanner.measure? ≠ none := by
  rcases atLine with ⟨rest, unread⟩
  rw [List.singleton_append] at unread
  intro unmeasured
  simp only [Scanner.measure?, ← unread] at unmeasured
  split at unmeasured
  · cases unmeasured
  · split at unmeasured
    · cases unmeasured
    · split at unmeasured <;> cases unmeasured

/-- The lines of a block are nested between its tokens. -/
theorem ensures_takenBlock (readsTag : ReadsTag inner) (outside : scanner.interpolated = false)
    (atLine : ['\n'] <+: scanner.unread) {unit : IndentUnit} {level width : Nat}
    {block : List BlockLine} {rest : List (List Char)}
    (taken : takeBlock unit level width (lines (scanner.unread.drop 1)) = .taken block rest) :
    Ensures (do
        addLines inner width true (if rest.isEmpty then dropEmptyEnd block else block)
        modify (·.pushHere .endTextBlock)
        return true)
      { scanner.pushHere .startTextBlock with unread := unlines rest }
      fun (_ : Bool) after => Extends scanner after := by
  have suffix := (suffix_of_takeBlock taken).1
  have oneLine := newline_not_mem_of_takeBlock taken
  have left : unlines rest <:+ scanner.unread := by
    rcases atLine with ⟨others, unread⟩
    rw [← unread] at suffix ⊢
    have behind := unlines_suffix suffix
    rwa [List.singleton_append, List.drop_one, List.tail_cons, unlines_lines] at behind
  have begun : Adds .textBlock (scanner.pushHere .startTextBlock)
      { scanner.pushHere .startTextBlock with unread := unlines rest } := .of_found_eq rfl rfl rfl
  refine (ensures_addLines readsTag (begun.interpolated.trans outside) oneLine).bind ?_
  intro _ after inserts
  refine .modify_bind ?_
  refine .pure ?_
  have closed : Adds .lines scanner (after.pushHere .endTextBlock) :=
    (begun.trans inserts.toAdds).enclose rfl rfl rfl
  have place : scanner.place = .lines := by simp [Scanner.place, outside]
  refine ⟨place ▸ closed, ?_, fun _ => inserts.ended⟩
  exact (congrArg (· <:+ scanner.unread) inserts.unread).mpr left

theorem ensures_textBlock (readsTag : ReadsTag inner) {budget : Nat} {requested : Option Nat}
    (oneLine : scanner.interpolated = true → '\n' ∉ scanner.unread)
    (atLine : requested ≠ none → ['\n'] <+: scanner.unread) :
    Ensures (Rule.textBlock (SimpleRule.run Rule.blankLine) inner budget requested) scanner
      fun _ after => Extends scanner after := by
  induction budget generalizing scanner requested with
  | zero => exact .pure .refl
  | succ budget ih =>
      refine .get_bind ?_
      refine (ensures_repeatBlank _).bind ?_
      rintro _ middle ⟨skipped, staysAtLine⟩
      refine .modifyGet_bind ?_
      cases measured : middle.measure? with
      | none =>
          -- No width was requested, as the text does not begin with a newline.
          have notRequested : requested = none := by
            by_contra isRequested
            exact measure?_ne_none (staysAtLine (atLine isRequested)) measured
          subst notRequested
          exact .pure skipped
      | some found =>
          rcases found with ⟨width, later⟩
          rcases extends_of_measure? measured with ⟨atLineLater, withUnit⟩
          have extended : Extends scanner later := skipped.trans withUnit
          have outside : later.interpolated = false := by
            by_contra inside
            rw [Bool.not_eq_false] at inside
            have inUnread := extended.unread.subset (atLineLater.subset (List.mem_singleton_self _))
            exact oneLine (extended.interpolated.symm.trans inside) inUnread
          have chosen : ∃ chosen, (requested <|> some width) = some chosen := by
            cases requested with
            | none => exact ⟨width, rfl⟩
            | some asked => exact ⟨asked, rfl⟩
          rcases chosen with ⟨chosen, choice⟩
          dsimp only
          rw [choice]
          refine .get_bind ?_
          split
          · exact .pure extended
          · split
            · next shallower _ =>
                refine (ih ?_ fun _ => atLineLater).mono ?_
                · intro inside
                  exact absurd inside (by simp [outside])
                · exact fun _ after further => extended.trans further
            · next block rest taken =>
                refine .set_bind ?_
                refine (ensures_takenBlock readsTag outside atLineLater taken).mono ?_
                exact fun _ after further => extended.trans further

end Offside
