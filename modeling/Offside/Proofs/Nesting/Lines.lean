import Offside.Proofs.Nesting.Blocks
import Offside.Token.Run

/-!
# Rules for lines

The rules for texts, comments, filters and files add more than one token. Each of them keeps its
tokens nested, among the lines of a template and inside an interpolated tag alike.
-/

namespace Offside

open Computing Scanner Text

variable {scanner : Scanner} {inner : Scanning Unit}

/-- The text of an interpolated tag is on one line. -/
def Scanner.Fits (scanner : Scanner) : Prop :=
  scanner.interpolated = true → '\n' ∉ scanner.unread

theorem Scanner.Extends.fits {after : Scanner} (extended : Extends scanner after)
    (fits : scanner.Fits) : after.Fits := by
  intro inside newline
  exact fits (extended.interpolated.symm.trans inside) (extended.unread.subset newline)

/-- A rule keeps the tokens nested wherever it is tried. -/
def KeepsNesting (rule : Scanning Bool) : Prop :=
  ∀ scanner : Scanner, scanner.Fits → Ensures rule scanner fun _ after => Extends scanner after

theorem keepsNesting_textBlock (readsTag : ReadsTag inner) :
    KeepsNesting (textBlockStep [] inner) := by
  intro scanner fits
  exact .get_bind (ensures_textBlock readsTag fits fun requested => absurd rfl requested)

/-! ### Texts -/

theorem holdsText_place (scanner : Scanner) (html : Bool) : scanner.place.HoldsText html := by
  unfold Scanner.place
  split
  all_goals
    cases html
    · exact ⟨fun _ => rfl, fun _ _ _ => rfl, rfl⟩
    · exact ⟨fun _ => rfl, fun _ _ _ => rfl, rfl⟩

/-- The line that comes next is read as a run of text. -/
theorem ensures_lineRun (readsTag : ReadsTag inner) {html : Bool} {value : List Char}
    (position : Position) (suffix : value <:+ firstLine scanner.unread)
    (someText : firstLine scanner.unread ≠ []) :
    Ensures (do
        addRun inner html value
        return true)
      { scanner.drop (firstLine scanner.unread).length with position := position }
      (Ruled scanner) := by
  have oneLine : '\n' ∉ value := fun newline => newline_not_mem_firstLine (suffix.subset newline)
  refine (ensures_addRun (holdsText_place scanner html) readsTag oneLine).bind ?_
  intro _ after runs
  refine .pure ?_
  have began : Adds scanner.place scanner
      { scanner.drop (firstLine scanner.unread).length with position := position } :=
    .of_found_eq rfl rfl rfl
  have behind : firstLine scanner.unread ++ scanner.unread.drop (firstLine scanner.unread).length =
      scanner.unread := firstLine_append_drop
  rcases runs.left with ⟨unread, ended⟩ | ⟨inside, ended, rest, suffixRest, unread⟩
  · have isRest : IsRest after.unread scanner.unread := by
      rw [unread]
      apply IsRest.drop
      · intro empty
        simp [empty, firstLine] at someText
      · exact List.length_pos_iff.mpr someText
    exact ⟨⟨began.trans runs.toAdds, isRest.suffix, fun _ => ended⟩, fun _ => .inr isRest.length_lt⟩
  · refine ⟨⟨began.trans runs.toAdds, ?_, fun outside => ?_⟩, fun _ => .inl ended⟩
    · rcases suffixRest.trans suffix with ⟨front, line⟩
      rw [unread]
      refine ⟨front, ?_⟩
      rw [← List.append_assoc, line]
      exact behind
    · have insideHere : scanner.interpolated = true := inside
      rw [outside] at insideHere
      cases insideHere

theorem ensures_text (readsTag : ReadsTag inner) :
    Ensures (Rule.text inner) scanner (Ruled scanner) := by
  refine .get_bind ?_
  extract_lets line run
  have runs : ∀ skipped value, value <:+ line → line ≠ [] →
      Ensures (run skipped value) scanner (Ruled scanner) :=
    fun _ _ suffix someText => .set_bind (ensures_lineRun readsTag _ suffix someText)
  clear_value run line
  split
  · exact runs _ _ (List.suffix_append ['|', ' '] _) (by simp)
  · exact runs _ _ (List.suffix_append ['|'] _) (by simp)
  · exact runs _ _ List.suffix_rfl (by simp)
  · exact runs _ _ (List.suffix_append [' '] _) (by simp)
  · exact .pure .declined

theorem ensures_html (readsTag : ReadsTag inner) :
    Ensures (Rule.html inner) scanner (Ruled scanner) := by
  refine .get_bind ?_
  split
  · next rest unread =>
      have someText : firstLine scanner.unread ≠ [] := by simp [unread, firstLine]
      exact .set_bind (ensures_lineRun readsTag scanner.position List.suffix_rfl someText)
  · exact .pure .declined

/-! ### Text blocks and attributes behind a token -/

/-- A rule takes a token and goes on with other rules. -/
theorem Scanner.Takes.ruled_trans {middle after : Scanner} (takes : Takes scanner middle)
    (further : Extends middle after) : Ruled scanner true after := by
  refine ⟨takes.extends.trans further, fun _ => .inr ?_⟩
  exact Nat.lt_of_le_of_lt further.unread.length_le takes.unread.length_lt

theorem ensures_comment {block : Scanning Bool} (keeps : KeepsNesting block)
    (fits : scanner.Fits) : Ensures (Rule.comment block) scanner (Ruled scanner) := by
  refine .get_bind ?_
  split
  · next rest unread =>
      extract_lets line
      split
      refine .set_bind ?_
      have takes : ∀ allowed kind count, Surrounding.interpolation.allows kind = true →
          Takes scanner ({ scanner with markersAllowed := allowed }.emit kind (2 + count)) := by
        intro allowed kind count single
        exact ⟨rfl, rfl, rfl, ⟨_, rfl, single⟩, .drop (by simp [unread]) (by omega)⟩
      refine (keeps _ ((takes _ _ _ rfl).extends.fits fits)).bind ?_
      intro _ after further
      exact .pure ((takes _ _ _ rfl).ruled_trans further)
  · exact .pure .declined

theorem ensures_dot {block : Scanning Bool} (keeps : KeepsNesting block)
    (fits : scanner.Fits) : Ensures (Rule.dot block) scanner (Ruled scanner) := by
  refine .get_bind ?_
  split
  · next rest unread =>
      split
      · exact .pure .declined
      · next token next found =>
          have takes := Rule.takes_endOfLine found rfl (unread ▸ .cons List.suffix_rfl)
          refine .set_bind ?_
          refine (keeps _ (takes.extends.fits fits)).bind ?_
          intro _ after further
          exact .pure (takes.ruled_trans further)
  · exact .pure .declined

theorem ensures_filter {attributes : Scanning Bool} {block : Option (Scanning Bool)}
    (keepsAttributes : KeepsNesting attributes) (keeps : ∀ rule ∈ block, KeepsNesting rule)
    (fits : scanner.Fits) : Ensures (Rule.filter attributes block) scanner (Ruled scanner) := by
  refine .get_bind ?_
  split
  · next rest unread =>
      split
      · exact .pure .declined
      · next name length found =>
          have takes : Takes scanner (scanner.emit (.filter (String.ofList name)) (1 + length)) :=
            takes_emit rfl (by simp [unread]) (by omega)
          refine .set_bind ?_
          refine (keepsAttributes _ (takes.extends.fits fits)).bind ?_
          intro _ after further
          cases block with
          | none => exact .pure (takes.ruled_trans further)
          | some rule =>
              have literal : Extends after { after with markersAllowed := false } :=
                .of_found_eq rfl rfl rfl rfl List.suffix_rfl
              have behind := further.trans literal
              refine .modify_bind ?_
              refine (keeps rule rfl _ (behind.fits (takes.extends.fits fits))).bind ?_
              intro _ last more
              exact .pure (takes.ruled_trans (behind.trans more))
  · exact .pure .declined

/-! ### Files -/

theorem keepsNesting_of_ruled {rule : Scanning Bool}
    (ruled : ∀ scanner : Scanner, scanner.Fits → Ensures rule scanner (Ruled scanner)) :
    KeepsNesting rule :=
  fun scanner fits => (ruled scanner fits).mono fun _ _ result => result.1

theorem ensures_repeatRule {rule : Scanning Bool} (keeps : KeepsNesting rule) (fits : scanner.Fits)
    (budget : Nat) :
    Ensures (repeatRule rule budget) scanner fun _ after => Extends scanner after := by
  induction budget generalizing scanner with
  | zero => exact .pure .refl
  | succ budget ih =>
      refine (keeps scanner fits).bind ?_
      intro matched middle extended
      cases matched with
      | false => exact .pure extended
      | true => exact (ih (extended.fits fits)).mono fun _ _ further => extended.trans further

theorem ensures_inheritance {path : Scanning Bool} (keeps : KeepsNesting path)
    (fits : scanner.Fits) : Ensures (Rule.inheritance path) scanner (Ruled scanner) := by
  unfold Rule.inheritance
  extract_lets announce
  have announces : ∀ keyword stops, keyword ≠ "" →
      Rule.opensWith keyword stops scanner.unread = true →
      Ensures (announce keyword) scanner (Ruled scanner) := by
    intro keyword stops someKeyword opens
    have takes : Takes scanner (scanner.emit .inheritance keyword.length) :=
      Rule.takes_keyword someKeyword opens rfl
    refine .modify_bind ?_
    refine (keeps _ (takes.extends.fits fits)).bind ?_
    intro matched after further
    cases matched with
    | false => exact .throw
    | true => exact .pure (takes.ruled_trans further)
  refine .get_bind ?_
  split
  · next opens => exact announces _ _ (by decide) opens
  · split
    · next opens => exact announces _ _ (by decide) opens
    · split
      · exact .throw
      · exact .pure .declined

theorem ensures_inclusion {filter path : Scanning Bool} (keepsFilter : KeepsNesting filter)
    (keeps : KeepsNesting path) (fits : scanner.Fits) :
    Ensures (Rule.inclusion filter path) scanner (Ruled scanner) := by
  refine .get_bind ?_
  split
  · next opens =>
      have takes : Takes scanner (scanner.emit .inclusion "include".length) :=
        Rule.takes_keyword (by decide) opens rfl
      refine .set_bind ?_
      refine (ensures_repeatRule keepsFilter (takes.extends.fits fits) _).bind ?_
      intro _ after further
      refine (keeps _ (further.fits (takes.extends.fits fits))).bind ?_
      intro matched last more
      cases matched with
      | true => exact .pure (takes.ruled_trans (further.trans more))
      | false =>
          refine .get_bind ?_
          split
          all_goals exact .throw
  · split
    · exact .throw
    · exact .pure .declined

end Offside
