import Offside.Proofs.Nesting.Words
import Offside.Token.Attribute
import Offside.Token.Marker

/-!
# Attribute lists and runs of text

The entries of an attribute list stand inside its brackets. A run of text adds texts and variables,
and interpolated tags, each of which a scanner of its own reads to the closing bracket.
-/

namespace Offside

open Computing Scanner Text

variable {here : Surrounding} {scanner next : Scanner} {text value rest : List Char}

/-! ### Attributes -/

/-- An entry changes the position, and adds its token if there is one. -/
theorem gives_attributeEntry_of_added (holds : Scanner → Prop)
    (moved : ∀ position, holds { scanner with position := position })
    (added : ∀ name value start stop position, holds
      { ({ scanner with position := stop }).push (.attributeEntry name value) start with
        position := position }) (text : List Char) :
    Gives (attributeEntry scanner text) fun found => holds found.1 := by
  unfold attributeEntry
  extract_lets entry
  split
  · exact .ok (moved _)
  split
  next nameQuote name behind _ =>
  extract_lets invalid behindName behindCheck addEntry
  have finished : ∀ (position later : Position) (value : AttributeValue) (rest : List Char),
      Gives (pure ({ ({ scanner with position := position }).push
          (.attributeEntry (String.ofList name) value) entry.position with
            position := later }, rest) : Except (Diagnostic TokenFault) (Scanner × List Char))
        fun found => holds found.1 :=
    fun _ _ _ _ => .ok (added _ _ _ _ _)
  have checked : Gives (behindCheck ()) fun found => holds found.1 := by
    dsimp only [behindCheck]
    split
    all_goals
      split
      · split
        · split
          · exact .throw_bind
          · exact finished _ _ _ _
        · exact finished _ _ _ _
      · exact finished _ _ _ _
  split
  · exact .throw_bind
  · dsimp only [addEntry]
    split
    · exact .throw_bind
    · exact checked

theorem inserts_attributeEntry (scanner : Scanner) (text : List Char) :
    Gives (attributeEntry scanner text) fun found => Inserts .attributes scanner found.1 :=
  gives_attributeEntry_of_added (Inserts .attributes scanner)
    (fun _ => .of_found_eq rfl rfl rfl rfl rfl)
    (fun _ _ _ _ _ => ⟨⟨rfl, rfl, _, kinds_push _ _ _, .one rfl⟩, rfl, rfl⟩) text

theorem inserts_attributeEntries (scanner : Scanner) (budget : Nat) (text : List Char) :
    Gives (attributeEntries scanner budget text) (Inserts .attributes scanner) := by
  fun_induction attributeEntries scanner budget text with
  | case1 | case2 => exact .ok .refl
  | case3 scanner budget text _ ih =>
      refine Gives.bind (inserts_attributeEntry scanner text) ?_
      rintro ⟨next, rest⟩ inserts
      exact (ih next rest).mono fun filled => inserts.trans

theorem gives_bracketed (scanner : Scanner) (opening : List Char) (close : Char)
    (text : List Char) :
    Gives (scanner.bracketed opening close text) fun cut => cut.2 <:+ text := by
  rintro ⟨body, rest⟩ closed
  exact Rule.suffix_of_bracketed closed

/-- The entries stand inside the brackets of their list. -/
theorem ensures_attributes : Ensures (CheckedRule.run Rule.attributes) scanner (Ruled scanner) := by
  refine ensures_of_gives .declined ?_
  unfold Rule.attributes
  split
  · next inside unread =>
      refine Gives.bind (gives_bracketed scanner ['('] ')' inside) ?_
      rintro ⟨body, rest⟩ suffix
      extract_lets opened
      refine Gives.bind (inserts_attributeEntries _ _ _) ?_
      intro filled inserts
      refine Gives.ok ?_
      rintro next ⟨⟩
      have moved : Adds .interpolation scanner (scanner.right 1) := .of_found_eq rfl rfl rfl
      have begun : Adds .attributes opened { opened with unread := rest } :=
        .of_found_eq rfl rfl rfl
      have entries : Adds .attributes opened (filled.right 1) :=
        (begun.trans inserts.toAdds).then_same rfl rfl rfl
      have closes : Adds .interpolation scanner
          ((filled.right 1).push .endAttributes filled.position) :=
        moved.trans (entries.enclose rfl rfl rfl)
      have isRest : IsRest filled.unread scanner.unread := by
        rw [inserts.unread, unread]
        exact .cons suffix
      exact ⟨⟨closes.atPlace, isRest.suffix, fun _ => inserts.ended⟩,
        fun _ => .inr isRest.length_lt⟩
  · refine Gives.ok ?_
    rintro next ⟨⟩

/-! ### Runs of text -/

/-- What a run of text adds may stand here. -/
structure Surrounding.HoldsText (here : Surrounding) (html : Bool) : Prop where
  texts : ∀ value, here.allows (if html then .html value else .text value) = true
  codes : ∀ expression buffered escaped, here.allows (.code expression buffered escaped) = true
  tags : here.holds .interpolation = true

/-- A computation reads an interpolated tag: on one line, it adds what may stand in the tag. -/
def ReadsTag (inner : Scanning Unit) : Prop :=
  ∀ scanner, scanner.interpolated = true → '\n' ∉ scanner.unread →
    Ensures inner scanner fun _ after => Extends scanner after

/-- What a run of text does to a scanner. The bracket that closes the interpolated tag being read
ends the run, and the text behind it is unread again. -/
structure Scanner.Runs (here : Surrounding) (value : List Char) (before after : Scanner) : Prop
    extends Adds here before after where
  left : after.unread = before.unread ∧ after.ended = before.ended ∨
    before.interpolated = true ∧ after.ended = true ∧
      ∃ rest, rest <:+ value ∧ after.unread = rest ++ before.unread

/-- Outside of tags a run of text is read to its end. -/
theorem Scanner.Runs.inserts (runs : Runs here value scanner next)
    (outside : scanner.interpolated = false) : Inserts here scanner next := by
  rcases runs.left with ⟨unread, ended⟩ | ⟨inside, _⟩
  · exact ⟨runs.toAdds, unread, ended⟩
  · rw [outside] at inside
    cases inside

theorem Scanner.Inserts.runs (inserts : Inserts here scanner next) : Runs here value scanner next :=
  ⟨inserts.toAdds, .inl ⟨inserts.unread, inserts.ended⟩⟩

theorem Scanner.Inserts.runs_trans {middle : Scanner} (inserts : Inserts here scanner middle)
    (runs : Runs here rest middle next) (suffix : rest <:+ value) :
    Runs here value scanner next := by
  refine ⟨inserts.toAdds.trans runs.toAdds, ?_⟩
  rcases runs.left with ⟨unread, ended⟩ | ⟨inside, ended, others, suffixOthers, unread⟩
  · exact .inl ⟨unread.trans inserts.unread, ended.trans inserts.ended⟩
  · refine .inr ⟨inserts.interpolated.symm.trans inside, ended, others,
      suffixOthers.trans suffix, ?_⟩
    rw [unread, inserts.unread]

theorem suffix_of_markerAt? {marker : Marker} (found : markerAt? text = some (marker, rest)) :
    rest <:+ text := by
  unfold markerAt? at found
  split at found
  all_goals cases found
  all_goals
    first
    | exact List.suffix_append [_, _, _] _
    | exact List.suffix_append [_, _] _

theorem suffix_of_findMarker {interpolated allowed : Bool} {front : List Char} {marker : Marker}
    (found : findMarker interpolated allowed text = some (front, marker, rest)) :
    rest <:+ text ∧ (marker = .close → interpolated = true) := by
  induction text generalizing front with
  | nil => cases found
  | cons first others ih =>
      unfold findMarker at found
      split at found
      · next closes =>
          cases found
          exact ⟨List.suffix_cons _ _, fun _ => (Bool.and_eq_true_iff.mp closes).1⟩
      · split at found
        · next marker behind opens =>
            cases found
            split at opens
            · refine ⟨suffix_of_markerAt? opens, ?_⟩
              rintro rfl
              unfold markerAt? at opens
              split at opens <;> cases opens
            · cases opens
        · rcases Option.map_eq_some_iff.mp found with ⟨⟨front, behind⟩, foundLater, ⟨⟩⟩
          rcases ih foundLater with ⟨suffix, inside⟩
          exact ⟨suffix.trans (List.suffix_cons first others), inside⟩

section

variable {html : Bool} {held : List Char}

theorem inserts_pushText (holdsText : here.HoldsText html) (scanner : Scanner) (value : List Char)
    (escaped : Nat) : Inserts here scanner (scanner.pushText html value escaped) := by
  have moved : Inserts here scanner (scanner.right (value.length + escaped)) :=
    .of_found_eq rfl rfl rfl rfl rfl
  exact moved.push (holdsText.texts (String.ofList value))

theorem gives_pushCode (holdsText : here.HoldsText html) (scanner : Scanner) (sigil : Char)
    (text : List Char) : Gives (scanner.pushCode sigil text) fun found =>
      Inserts here scanner found.1 ∧ found.2 <:+ text := by
  rintro ⟨next, rest⟩ done
  unfold Scanner.pushCode at done
  split at done
  · cases done
  · cases done
  · next body others closed =>
      cases done
      have moved : Inserts here scanner (((scanner.right 2).past body).right 1) :=
        .of_found_eq rfl rfl rfl rfl rfl
      refine ⟨moved.push (holdsText.codes _ _ _), ?_⟩
      rw [Bracket.eq_append_of_find_eq_closed closed]
      exact (List.suffix_cons _ rest).trans (List.suffix_append body _)

/-- The tokens of an interpolated tag stand inside its brackets. -/
theorem ensures_interpolated (holdsText : here.HoldsText html) {inner : Scanning Unit}
    (readsTag : ReadsTag inner) {body : List Char} (oneLine : '\n' ∉ body) :
    Ensures (interpolated inner body) scanner fun rest after =>
      Inserts here scanner after ∧ rest <:+ body := by
  intro rest after done
  unfold interpolated at done
  extract_lets opened at done
  split at done
  · cases done
  · next child read =>
      cases done
      have extended : Extends (opened.nest body) child := readsTag _ rfl oneLine () child read
      rcases extended.nested with ⟨added, kinds, nested⟩
      have moved : Inserts here scanner (scanner.right 2) := .of_found_eq rfl rfl rfl rfl rfl
      have inside : Inserts .interpolation opened
          (({ opened with
            position := ⟨opened.position.line, child.position.column⟩
            found := child.found ++ opened.found
            events := child.events }).right 1) := by
        refine ⟨⟨rfl, rfl, added, ?_, nested⟩, rfl, rfl⟩
        have childKinds : (child.found.reverse.map Token.kind) = added := kinds
        simp [Scanner.kinds, Scanner.right, childKinds]
      exact ⟨moved.trans (inside.enclose holdsText.tags rfl rfl), extended.unread⟩

theorem ensures_addText (holdsText : here.HoldsText html) {inner : Scanning Unit}
    (readsTag : ReadsTag inner) {budget escaped : Nat} (oneLine : '\n' ∉ value) :
    Ensures (addText inner html budget value held escaped) scanner fun _ after =>
      Runs here value scanner after := by
  induction budget generalizing value held escaped scanner with
  | zero => exact .pure Inserts.refl.runs
  | succ budget ih =>
      refine .get_bind ?_
      have pushed : ∀ (scanner : Scanner) value escaped,
          Inserts here scanner (scanner.pushText html value escaped) :=
        inserts_pushText holdsText
      cases found : findMarker scanner.interpolated scanner.markersAllowed value with
      | none => exact .set (pushed _ _ _).runs
      | some parts =>
          rcases parts with ⟨front, marker, rest⟩
          rcases suffix_of_findMarker found with ⟨suffix, inside⟩
          have oneLineRest : '\n' ∉ rest := fun newline => oneLine (suffix.subset newline)
          cases marker with
          | escapedTag | escapedCode =>
              exact (ih oneLineRest).mono fun _ after runs => Inserts.refl.runs_trans runs suffix
          | tag =>
              refine .set_bind ?_
              refine (ensures_interpolated holdsText readsTag oneLineRest).bind ?_
              rintro behind middle ⟨inserts, suffixBehind⟩
              refine (ih fun newline => oneLineRest (suffixBehind.subset newline)).mono ?_
              intro _ after runs
              exact ((pushed _ _ _).trans inserts).runs_trans runs (suffixBehind.trans suffix)
          | code sigil =>
              have codes := gives_pushCode holdsText
                (scanner.pushText html (held ++ front) escaped) sigil rest
              dsimp only
              split
              · exact .throw
              · next next behind coded =>
                  rcases codes _ coded with ⟨inserts, suffixBehind⟩
                  refine .set_bind ?_
                  refine (ih fun newline => oneLineRest (suffixBehind.subset newline)).mono ?_
                  intro _ after runs
                  exact ((pushed _ _ _).trans inserts).runs_trans runs (suffixBehind.trans suffix)
          | close =>
              dsimp only
              refine .set ?_
              split
              · exact ⟨.of_found_eq rfl rfl rfl, .inr ⟨inside rfl, rfl, rest, suffix, rfl⟩⟩
              · have added := (pushed scanner (held ++ front) escaped).toAdds
                exact ⟨added.then_same rfl rfl rfl, .inr ⟨inside rfl, rfl, rest, suffix, rfl⟩⟩

theorem ensures_addRun (holdsText : here.HoldsText html) {inner : Scanning Unit}
    (readsTag : ReadsTag inner) (oneLine : '\n' ∉ value) :
    Ensures (addRun inner html value) scanner fun _ after => Runs here value scanner after :=
  ensures_addText holdsText readsTag oneLine

end

end Offside
