import Offside.Proofs.Position.Brackets

/-!
# Runs of text and text blocks

A run of text stands on one line, and what is read of it is counted: a text by its length and its
escapes, a variable character by character. An interpolated tag is read by a scanner of its own,
which stops at the bracket. The lines of a text block begin behind the indentation of the block.
-/

namespace Offside

open Computing Position Scanner Text

/-! ### Markers -/

section

variable {rest : List Char}

theorem markerAt?_cons_of_isWhitespace {first : Char} (blank : isWhitespace first = true) :
    markerAt? (first :: rest) = none := by
  have other : ∀ sign, isWhitespace sign = false → first ≠ sign := by
    rintro sign noBlank rfl
    rw [blank] at noBlank
    cases noBlank
  have noBackslash := other '\\' (by decide)
  have noHash := other '#' (by decide)
  have noMark := other '!' (by decide)
  unfold markerAt?
  split <;> simp_all

/-- There is no marker among blanks. -/
theorem findMarker_of_isBlank {interpolated allowed : Bool} (blank : isBlank text = true) :
    findMarker interpolated allowed text = none := by
  induction text with
  | nil => rfl
  | cons first others ih =>
      rw [isBlank, List.all_cons, Bool.and_eq_true_iff] at blank
      have noBracket : (first == ']') = false := by
        rw [beq_eq_false_iff_ne]
        rintro rfl
        exact absurd blank.1 (by decide)
      simp [findMarker, noBracket, markerAt?_cons_of_isWhitespace blank.1, ih blank.2]

end

/-! ### Runs of text -/

theorem Scanner.past_eq_right {scanner : Scanner} {text : List Char} (oneLine : '\n' ∉ text) :
    scanner.past text = scanner.right text.length := by
  rw [past, Position.past_eq_right oneLine]
  rfl

/-- In a run of text a scanner has come to a place where a text goes on, with something behind it.
It is still on the line on which the run began. -/
structure Reading (here : Frame) (start : Scanner) (text behind : List Char) (scanner : Scanner) :
    Prop where
  interpolated : scanner.interpolated = start.interpolated
  ended : scanner.ended = start.ended
  unread : scanner.unread = start.unread
  grows : start.found ⊆ scanner.found
  located : Located here.text (scanner.allFound here)
  stands : Missed here.text (scanner.allFound here) ∨
    StandsAt here.text scanner.position text behind ∧
      scanner.position.line = start.position.line

/-- A run of text has come to its end, or to the bracket that closes the interpolated tag being
read; at most `bound` characters of the run are behind the bracket. -/
structure Ran (here : Frame) (start : Scanner) (bound : Nat) (behind : List Char)
    (scanner : Scanner) : Prop where
  interpolated : scanner.interpolated = start.interpolated
  grows : start.found ⊆ scanner.found
  located : Located here.text (scanner.allFound here)
  line : Missed here.text (scanner.allFound here) ∨
    scanner.position.line = start.position.line
  left : scanner.ended = start.ended ∧ scanner.unread = start.unread ∨
    scanner.ended = true ∧ ∃ rest, rest.length ≤ bound ∧ '\n' ∉ rest ∧
      scanner.unread = rest ++ start.unread ∧
      (Missed here.text (scanner.allFound here) ∨
        PointsTo here.text scanner.position (']' :: rest ++ behind))

/-- A computation reads every interpolated tag up to a length to its closing bracket. -/
def Visits (limit : Nat) (inner : Scanning Unit) : Prop :=
  ∀ (here : Frame) (scanner : Scanner), here.inside = true → here.limit + 2 ≤ limit →
    Running here scanner → Ensures inner scanner fun _ after => Stopped here after

section

variable {here : Frame} {start scanner : Scanner} {front text behind : List Char}

namespace Reading

theorem right (front : List Char) (reading : Reading here start (front ++ text) behind scanner)
    {count : Nat} (oneLine : '\n' ∉ front) (length : front.length = count) :
    Reading here start text behind (scanner.right count) := by
  subst length
  refine ⟨reading.interpolated, reading.ended, reading.unread, reading.grows, reading.located, ?_⟩
  exact reading.stands.imp_right fun stands => ⟨stands.1.right oneLine, stands.2⟩

theorem push (reading : Reading here start text behind scanner) {kind : TokenKind}
    {position : Position} (other : ∀ name, kind ≠ .tag name) :
    Reading here start text behind (scanner.push kind position) := by
  refine ⟨reading.interpolated, reading.ended, reading.unread,
    List.subset_cons_of_subset _ reading.grows,
    ⟨fun name same => absurd same (other name), reading.located⟩, ?_⟩
  exact reading.stands.imp_left fun missed => missed.mono (List.subset_cons_self _ _)

theorem pushText (reading : Reading here start (front ++ text) behind scanner) (html : Bool)
    {value : List Char} {escaped : Nat} (oneLine : '\n' ∉ front)
    (length : front.length = value.length + escaped) :
    Reading here start text behind (scanner.pushText html value escaped) := by
  refine (reading.right front oneLine length).push ?_
  cases html <;> simp

/-- No token is added for an empty text. -/
theorem pushText_unless_isEmpty (reading : Reading here start (front ++ text) behind scanner)
    (html : Bool) {value : List Char} {escaped : Nat} (oneLine : '\n' ∉ front)
    (length : front.length = value.length + escaped) (noText : value = [] → front = []) :
    Reading here start text behind
      (if value.isEmpty then scanner else scanner.pushText html value escaped) := by
  split
  · next empty =>
      rwa [noText (List.isEmpty_iff.mp empty)] at reading
  · exact reading.pushText html oneLine length

theorem ran (reading : Reading here start text behind scanner) (bound : Nat) :
    Ran here start bound behind scanner :=
  ⟨reading.interpolated, reading.grows, reading.located, reading.stands.imp_right And.right,
    .inl ⟨reading.ended, reading.unread⟩⟩

/-- At its bracket the interpolated tag being read ends, and the rest of the run is left to the
scanner around it. -/
theorem ran_closed (reading : Reading here start (']' :: text) behind scanner) {bound : Nat}
    {unread : List Char} (oneLine : '\n' ∉ text) (within : text.length ≤ bound)
    (left : unread = text ++ start.unread) :
    Ran here start bound behind { scanner with ended := true, unread := unread } :=
  ⟨reading.interpolated, reading.grows, reading.located, reading.stands.imp_right And.right,
    .inr ⟨rfl, text, within, oneLine, left,
      reading.stands.imp_right fun stands => stands.1.column rfl (by decide)⟩⟩

/-- A variable is read up to its bracket. -/
theorem gives_pushCode {sigil : Char}
    (reading : Reading here start (sigil :: '\x7b' :: text) behind scanner)
    (oneLine : '\n' ∉ sigil :: '\x7b' :: text) :
    Gives (scanner.pushCode sigil text) fun found =>
      Reading here start found.2 behind found.1 ∧ '\n' ∉ found.2 ∧
        found.2.length ≤ text.length := by
  rintro ⟨next, rest⟩ done
  unfold Scanner.pushCode at done
  split at done
  · cases done
  · cases done
  · next body others closed =>
      cases done
      have parts := Bracket.eq_append_of_find_eq_closed closed
      subst parts
      simp only [List.mem_cons, List.mem_append, not_or] at oneLine
      rcases oneLine with ⟨noSigil, noOpening, inBody, noClosing, inRest⟩
      have opened := reading.right [sigil, '\x7b'] (by simp [noSigil]) rfl
      have filled := opened.right body inBody rfl
      have closed := filled.right ['\x7d'] (by decide) rfl
      rw [Scanner.past_eq_right inBody]
      refine ⟨closed.push (by simp), inRest, ?_⟩
      simp only [List.length_append, List.length_cons]
      omega

end Reading

/-- Two parts that end in the same place, and hold no newline before it, begin on the same line. -/
theorem line_eq_of_pointsTo {whole other : List Char} {position next : Position}
    (points : PointsTo whole position (text ++ behind)) (oneLine : '\n' ∉ text)
    (pointsOther : PointsTo whole next (other ++ behind)) (oneLineOther : '\n' ∉ other) :
    next.line = position.line := by
  rcases points.onLineOf with ⟨before, parts, line⟩
  rcases pointsOther.onLineOf with ⟨beforeOther, partsOther, lineOther⟩
  have same := congrArg (List.count '\n') (parts.symm.trans partsOther)
  simp only [List.count_append, List.count_eq_zero.mpr oneLine,
    List.count_eq_zero.mpr oneLineOther] at same
  omega

/-- The scanner for an interpolated tag starts behind its opening and stops at its bracket. -/
theorem reading_interpolated {inner : Scanning Unit} {limit : Nat} (visits : Visits limit inner)
    (reading : Reading here start ('#' :: '[' :: text) behind scanner) (oneLine : '\n' ∉ text)
    (within : text.length + 2 ≤ limit) :
    Ensures (interpolated inner text) scanner fun rest after =>
      Reading here start rest behind after ∧ '\n' ∉ rest ∧ rest.length ≤ text.length := by
  intro rest after done
  unfold interpolated at done
  extract_lets opened at done
  have began : Reading here start text behind opened :=
    (reading.right ['#', '['] (by decide) rfl).push (by simp)
  have insideTag : Running ⟨here.text, behind, opened.allFound here, true, text.length⟩
      (opened.nest text) :=
    ⟨fun _ => rfl, rfl, Nat.le_refl _, fun _ => oneLine, began.located,
      began.stands.imp_right And.left⟩
  split at done
  · cases done
  · next child read =>
      cases done
      have stopped := visits _ _ rfl within insideTag () child read
      have closed := stopped.closed rfl
      have sameFound : child.allFound ⟨here.text, behind, opened.allFound here, true, text.length⟩ =
          child.found ++ opened.found ++ here.earlier := (List.append_assoc ..).symm
      have located := stopped.located
      have points := closed.points
      rw [sameFound] at located points
      have grows : start.found ⊆ child.found ++ opened.found :=
        List.subset_append_of_subset_right _ began.grows
      refine ⟨⟨began.interpolated, began.ended, began.unread, List.subset_cons_of_subset _ grows,
        ⟨by rintro _ ⟨⟩, located⟩, ?_⟩, closed.oneLine, closed.within⟩
      rcases points with missed | pointsChild
      · exact .inl (missed.mono (List.subset_cons_self _ _))
      rcases reading.stands with missed | ⟨stands, sameLine⟩
      · have subset : scanner.allFound here ⊆ child.found ++ opened.found ++ here.earlier := by
          have openedFound : scanner.found ⊆ opened.found := List.subset_cons_self _ _
          intro token inFound
          rcases List.mem_append.mp inFound with inTokens | inEarlier
          · simp [openedFound inTokens]
          · simp [inEarlier]
        exact .inl (missed.mono (List.subset_cons_of_subset _ subset))
      · have pointsHere := stands.column rfl (by decide)
        have line : child.position.line = scanner.position.line :=
          line_eq_of_pointsTo pointsHere (by simp [oneLine]) pointsChild (by simp [closed.oneLine])
        refine .inr ⟨PointsTo.standsAt ?_, sameLine⟩
        have atBracket : PointsTo here.text child.position ([']'] ++ (child.unread ++ behind)) :=
          pointsChild
        have behindTag : PointsTo here.text (child.position.right 1) (child.unread ++ behind) :=
          atBracket.right (by decide)
        have place : child.position.right 1 = ⟨scanner.position.line, child.position.column + 1⟩ :=
          congrArg (Position.mk · _) line
        rwa [place] at behindTag

/-- A run of text on one line. What is held, with its escapes, is not counted yet. -/
theorem ran_addText {inner : Scanning Unit} {limit bound : Nat} (visits : Visits limit inner)
    (limited : bound ≤ limit) {html : Bool} {budget escaped : Nat} {value held raw : List Char}
    (reading : Reading here start (raw ++ value) behind scanner) (oneLine : '\n' ∉ raw ++ value)
    (length : raw.length = held.length + escaped) (someHeld : held = [] → raw = [])
    (within : value.length ≤ bound) :
    Ensures (addText inner html budget value held escaped) scanner fun _ after =>
      Ran here start bound behind after := by
  induction budget generalizing scanner value held escaped raw with
  | zero => exact .pure (reading.ran bound)
  | succ budget ih =>
      refine .get_bind ?_
      cases found : findMarker scanner.interpolated scanner.markersAllowed value with
      | none =>
          have whole : Reading here start ((raw ++ value) ++ []) behind scanner := by
            rwa [List.append_nil]
          refine .set ((whole.pushText html oneLine ?_).ran bound)
          rw [List.length_append, List.length_append]
          omega
      | some parts =>
          rcases parts with ⟨front, marker, rest⟩
          have cut := eq_append_of_findMarker found
          subst cut
          simp only [List.length_append] at within
          have oneLineRest : '\n' ∉ rest := fun newline => oneLine (by simp [newline])
          have oneLineFront : '\n' ∉ raw ++ front := by
            intro newline
            rw [List.mem_append] at newline
            exact oneLine (by rcases newline with h | h <;> simp [h])
          rw [← List.append_assoc] at reading
          have lengthFront : (raw ++ front).length = (held ++ front).length + escaped := by
            rw [List.length_append, List.length_append]
            omega
          have more : ∀ {middle : Scanner} {others : List Char},
              Reading here start others behind middle → '\n' ∉ others → others.length ≤ bound →
              Ensures (addText inner html budget others [] 0) middle fun _ after =>
                Ran here start bound behind after :=
            fun read oneLineOthers fits =>
              @ih _ 0 _ [] [] read oneLineOthers rfl (fun _ => rfl) fits
          cases marker with
          | escapedTag | escapedCode =>
              rw [← List.append_assoc] at reading
              refine ih reading ?_ ?_ ?_ ?_
              · simpa only [List.append_assoc] using oneLine
              · simp only [Marker.written, List.length_append, List.length_cons,
                  List.length_nil] at length ⊢
                omega
              · simp
              · omega
          | tag =>
              have shown : Reading here start ('#' :: '[' :: rest) behind
                  (scanner.pushText html (held ++ front) escaped) :=
                reading.pushText html oneLineFront lengthFront
              have fits : rest.length + 2 ≤ limit := by
                simp only [Marker.written, List.length_cons, List.length_nil] at within
                omega
              refine .set_bind ?_
              refine (reading_interpolated visits shown oneLineRest fits).bind ?_
              rintro others middle ⟨behindTag, oneLineOthers, shorter⟩
              exact more behindTag oneLineOthers (by omega)
          | code sigil =>
              have shown : Reading here start (sigil :: '\x7b' :: rest) behind
                  (scanner.pushText html (held ++ front) escaped) :=
                reading.pushText html oneLineFront lengthFront
              have oneLineCode : '\n' ∉ sigil :: '\x7b' :: rest := by
                intro newline
                apply oneLine
                simp only [Marker.written, List.mem_append]
                exact .inr (.inr (by simpa using newline))
              dsimp only
              split
              · exact .throw
              · next next others coded =>
                  rcases shown.gives_pushCode oneLineCode _ coded with
                    ⟨behindCode, oneLineOthers, shorter⟩
                  refine .set_bind (more behindCode oneLineOthers ?_)
                  exact shorter.trans (Nat.le_trans (Nat.le_add_left _ _)
                    (Nat.le_trans (Nat.le_add_left _ _) within))
          | close =>
              dsimp only
              have noText : held ++ front = [] → raw ++ front = [] := by
                intro empty
                rw [List.append_eq_nil_iff] at empty
                rw [someHeld empty.1, empty.2, List.append_nil]
              have shown : Reading here start (']' :: rest) behind
                  (if (held ++ front).isEmpty then scanner
                    else scanner.pushText html (held ++ front) escaped) :=
                reading.pushText_unless_isEmpty html oneLineFront lengthFront noText
              exact .set (shown.ran_closed oneLineRest (by omega) (by rw [reading.unread]))

end

end Offside
