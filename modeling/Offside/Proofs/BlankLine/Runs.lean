import Offside.Proofs.BlankLine.Twin
import Offside.Proofs.Position.Text
import Offside.Token.TextBlock

/-!
# Runs of text in two texts

A run of text is a part of one line, and so is the text of each tag in it. Two scanners that read
these tags alike read the run alike.
-/

namespace Offside

open Computing Scanner Text

variable {front rest rest' value : List Char} {limit : Nat} {scanner other : Scanner}
  {inner inner' : Scanning Unit}

/-- Both computations read the same interpolated tag, of at most `size` characters, in the same
way. -/
def MirrorsTag (size : Nat) (inner inner' : Scanning Unit) : Prop :=
  ∀ ⦃scanner other : Scanner⦄, Twins size [] [] scanner other → scanner.interpolated = true →
    '\n' ∉ scanner.unread → Scanning.Mirrored size [] [] inner inner' scanner other

namespace Scanner.Twin

theorem pushText (twin : Twin front rest rest' scanner other) (html : Bool) (value : List Char)
    (escaped : Nat) :
    Twin front rest rest' (scanner.pushText html value escaped)
      (other.pushText html value escaped) :=
  (twin.right _).push _ twin.column

theorem pushCode (twin : Twin front rest rest' scanner other) (sigil : Char) (text : List Char) :
    Both (fun read read' => Twin front rest rest' read.1 read'.1 ∧ read'.2 = read.2 ∧
        read.2 <:+ text) SameReason
      (scanner.pushCode sigil text) (other.pushCode sigil text) := by
  unfold Scanner.pushCode
  cases closed : Bracket.find '\x7d' text with
  | unclosed => exact .error .refl
  | mismatched => exact .error .refl
  | closed body left =>
      have read := (((twin.right 2).past body).right 1).push
        (.code (String.ofList body) true (sigil == '#')) twin.column
      refine .ok ⟨read, rfl, ?_⟩
      rw [Bracket.eq_append_of_find_eq_closed closed]
      exact (List.suffix_cons _ _).trans (List.suffix_append _ _)

theorem nest (twin : Twin front rest rest' scanner other) (body : List Char) :
    Twin body [] [] (scanner.nest body) (other.nest body) where
  file := twin.file
  interpolated := rfl
  unread := (List.append_nil body).symm
  unreadOther := (List.append_nil body).symm
  column := twin.column
  levels := rfl
  unit := rfl
  markersAllowed := rfl
  ended := rfl
  found := rfl

end Scanner.Twin

section

variable (readsTag : ReadsTag inner)

include readsTag

/-- An interpolated tag, and what is behind it on the line. -/
theorem matches_interpolated {body : List Char} (mirrors : MirrorsTag body.length inner inner')
    (oneLine : '\n' ∉ body) (twin : Twin front rest rest' scanner other) :
    Matches (Twin front rest rest') (fun left left' => left' = left ∧ left <:+ body) SameReason
      (interpolated inner body scanner) (interpolated inner' body other) := by
  have opened := (twin.right 2).push .startInterpolation twin.column
  have read := mirrors ((opened.nest body).twins (Nat.le_refl _)) rfl oneLine
  have reads := readsTag (((scanner.right 2).push .startInterpolation scanner.position).nest body)
    rfl oneLine
  unfold Scanning.Mirrored at read
  unfold interpolated
  extract_lets start start'
  revert read reads
  rw [Ensures]
  generalize inner (start.nest body) = result
  generalize inner' (start'.nest body) = result'
  intro read reads
  cases result with
  | error fault child =>
      cases result' with
      | error fault' child' => exact ⟨read.1, { opened with }⟩
      | ok => exact read.elim
  | ok value child =>
      cases result' with
      | error => exact read.elim
      | ok value' child' =>
          rcases read with ⟨-, line, -, twinChild⟩
          have back : Twin front rest rest'
              { start with
                position := ⟨start.position.line, child.position.column⟩
                found := child.found ++ start.found
                events := child.events }
              { start' with
                position := ⟨start'.position.line, child'.position.column⟩
                found := child'.found ++ start'.found
                events := child'.events } :=
            { opened with
              column := twinChild.column
              found := by rw [List.map_append, List.map_append, twinChild.found, opened.found] }
          refine ⟨⟨?_, (reads value child rfl).unread⟩, (back.right 1).push _ back.column⟩
          rw [twinChild.unread, twinChild.unreadOther]

variable (html : Bool)

/-- A run of text is read in the same way if each tag in it is. -/
theorem mirrored_addText (tags : ∀ size, size + 2 ≤ limit → MirrorsTag size inner inner')
    {budget : Nat} {held : List Char} {escaped : Nat} (oneLine : '\n' ∉ value)
    (fits : value.length + front.length ≤ limit) (twin : Twin front rest rest' scanner other) :
    Scanning.Mirrored limit rest rest' (addText inner html budget value held escaped)
      (addText inner' html budget value held escaped) scanner other := by
  induction budget generalizing value held escaped scanner other with
  | zero => exact .pure (twin.twins (Nat.le_trans (Nat.le_add_left _ _) fits)) ()
  | succ budget ih =>
      refine .get_bind ?_
      have within : front.length ≤ limit := Nat.le_trans (Nat.le_add_left _ _) fits
      rw [twin.interpolated, twin.markersAllowed]
      cases found : findMarker scanner.interpolated scanner.markersAllowed value with
      | none => exact .set ((twin.pushText html _ _).twins within)
      | some parts =>
          rcases parts with ⟨before, marker, behind⟩
          have suffix := (suffix_of_findMarker found).1
          have lengths := congrArg List.length (eq_append_of_findMarker found)
          simp only [List.length_append] at lengths
          have goesOn : ∀ {left held : List Char} {escaped : Nat} {scanner other : Scanner},
              left <:+ behind → Twin front rest rest' scanner other →
              Scanning.Mirrored limit rest rest' (addText inner html budget left held escaped)
                (addText inner' html budget left held escaped) scanner other := by
            intro left held escaped scanner other suffixLeft twin
            have shorter := (suffixLeft.trans suffix).length_le
            exact ih (fun newline => oneLine ((suffixLeft.trans suffix).subset newline))
              (by omega) twin
          cases marker with
          | escapedTag | escapedCode => exact goesOn List.suffix_rfl twin
          | tag =>
              have oneLineBehind : '\n' ∉ behind := fun newline => oneLine (suffix.subset newline)
              have bracket : behind.length + 2 ≤ limit := by
                simp only [Marker.written, List.length_cons, List.length_nil] at lengths
                omega
              refine .set_bind ?_
              refine Matches.bind_within (fun _ _ twin => twin.twins within)
                (matches_interpolated readsTag (tags _ bracket) oneLineBehind
                  (twin.pushText html (held ++ before) escaped)) ?_
              rintro left _ middle middle' - - ⟨rfl, suffixLeft⟩ twinMiddle
              exact goesOn suffixLeft twinMiddle
          | code sigil =>
              have shown := twin.pushText html (held ++ before) escaped
              have coded := shown.pushCode sigil behind
              dsimp only
              revert coded
              generalize (scanner.pushText html (held ++ before) escaped).pushCode _ _ = result
              generalize (other.pushText html (held ++ before) escaped).pushCode _ _ = result'
              rintro (⟨read, sameLeft, suffixLeft⟩ | same)
              · dsimp only
                rw [sameLeft]
                exact .set_bind (goesOn suffixLeft read)
              · exact .throw (twin.twins within) same
          | close =>
              refine .set ?_
              have shown := twin.pushText html (held ++ before) escaped
              have ends : ∀ {scanner' other' : Scanner}, Twin front rest rest' scanner' other' →
                  Twin (behind ++ front) rest rest'
                    { scanner' with ended := true, unread := behind ++ scanner.unread }
                    { other' with ended := true, unread := behind ++ other.unread } :=
                fun given =>
                  { given with
                    unread := by rw [twin.unread, List.append_assoc]
                    unreadOther := by rw [twin.unreadOther, List.append_assoc]
                    ended := rfl }
              have fitsBehind : (behind ++ front).length ≤ limit := by
                rw [List.length_append]
                omega
              split
              · exact (ends twin).twins fitsBehind
              · exact (ends shown).twins fitsBehind

theorem mirrored_lineRun (tags : ∀ size, size + 2 ≤ limit → MirrorsTag size inner inner')
    (suffix : value <:+ firstLine front) (fits : front.length ≤ limit)
    (twin : Twin (front.drop (firstLine front).length) rest rest' scanner other) :
    Scanning.Mirrored limit rest rest'
      (do
        addRun inner html value
        return true)
      (do
        addRun inner' html value
        return true)
      scanner other := by
  have oneLine : '\n' ∉ value := fun newline => newline_not_mem_firstLine (suffix.subset newline)
  have lineFits := (List.takeWhile_prefix (· ≠ '\n') (l := front)).length_le
  have behindFits : value.length + (front.drop (firstLine front).length).length ≤ limit := by
    have shorter := suffix.length_le
    have line : (firstLine front).length ≤ front.length := lineFits
    rw [List.length_drop]
    omega
  refine (mirrored_addText readsTag html tags oneLine behindFits twin).bind ?_
  exact fun _ _ _ twins => .pure twins true

variable (spaced : Spaced rest rest') (twin : Twin front rest rest' scanner other)

include spaced twin

theorem Rule.mirrored_text
    (tags : ∀ size, size + 2 ≤ front.length → MirrorsTag size inner inner') :
    Scanning.Mirrored front.length rest rest' (text inner) (text inner') scanner other := by
  refine .get_bind ?_
  extract_lets line run line' run'
  have lineFound : line = firstLine front := by
    rw [← spaced.left.firstLine_append, ← twin.unread]
  have lineFound' : line' = firstLine front := by
    rw [← spaced.right.firstLine_append, ← twin.unreadOther]
  have lineFits := (List.takeWhile_prefix (· ≠ '\n') (l := front)).length_le
  have runs : ∀ skipped value, value <:+ line →
      Scanning.Mirrored front.length rest rest' (run skipped value) (run' skipped value) scanner
        other := by
    intro skipped value suffix
    refine .set_bind (mirrored_lineRun readsTag false tags (lineFound ▸ suffix) (Nat.le_refl _) ?_)
    rw [lineFound, lineFound']
    exact (twin.drop lineFits).right skipped
  have sameLine : line' = line := lineFound'.trans lineFound.symm
  clear lineFound lineFound'
  clear_value run run' line line'
  subst sameLine
  split
  · exact runs _ _ (List.suffix_append ['|', ' '] _)
  · exact runs _ _ (List.suffix_append ['|'] _)
  · exact runs _ _ List.suffix_rfl
  · exact runs _ _ (List.suffix_append [' '] _)
  · exact .pure (twin.twins (Nat.le_refl _)) false

theorem Rule.mirrored_html
    (tags : ∀ size, size + 2 ≤ front.length → MirrorsTag size inner inner') :
    Scanning.Mirrored front.length rest rest' (Rule.html inner) (Rule.html inner') scanner
      other := by
  refine .get_bind ?_
  rw [twin.unread, twin.unreadOther, spaced.left.firstLine_append, spaced.right.firstLine_append]
  have twins := twin.twins (Nat.le_refl front.length)
  have lineFits := (List.takeWhile_prefix (· ≠ '\n') (l := front)).length_le
  have runs := mirrored_lineRun readsTag true tags List.suffix_rfl (Nat.le_refl _)
    (twin.drop lineFits)
  cases front with
  | nil => cases spaced <;> exact .pure twins false
  | cons first line =>
      by_cases bracket : first = '<'
      · subst bracket
        exact .set_bind runs
      · simp only [List.cons_append]
        split <;> split <;> simp_all
        exact .pure twins false

end

end Offside
