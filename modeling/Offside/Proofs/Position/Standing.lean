import Offside.Proofs.Provenance.Text

/-!
# Where a scanner stands in its text

The line and the column of a scanner are counted apart from the text that it reads. At the end of a
line only the line is sure to be counted right, as the blanks there are dropped without a move; in
all other places the position is that of the next character. A backslash in front of a newline, in
an attribute's value, is the one place where a newline is missed.
-/

namespace Offside

open Text

namespace Position

variable {text front tail : List Char} {position next : Position}

/-- The position is that of a part of the text that goes on to its end. -/
def PointsTo (text : List Char) (position : Position) (tail : List Char) : Prop :=
  ∃ front, text = front ++ tail ∧ position = past ⟨1, 1⟩ front

/-- The part of the text begins on the line of the position. -/
def OnLineOf (text : List Char) (position : Position) (tail : List Char) : Prop :=
  ∃ front, text = front ++ tail ∧ position.line = 1 + front.count '\n'

theorem PointsTo.onLineOf (points : PointsTo text position tail) : OnLineOf text position tail := by
  rcases points with ⟨front, rfl, rfl⟩
  exact ⟨front, rfl, line_past _ _⟩

theorem PointsTo.past (points : PointsTo text position (front ++ tail)) :
    PointsTo text (position.past front) tail := by
  rcases points with ⟨before, rfl, rfl⟩
  refine ⟨before ++ front, ?_, ?_⟩
  · rw [List.append_assoc]
  · rw [past_append]

theorem PointsTo.right (points : PointsTo text position (front ++ tail)) (oneLine : '\n' ∉ front) :
    PointsTo text (position.right front.length) tail :=
  past_eq_right oneLine ▸ points.past

theorem OnLineOf.past (onLine : OnLineOf text position (front ++ tail))
    (line : next.line = position.line + front.count '\n') : OnLineOf text next tail := by
  rcases onLine with ⟨before, rfl, here⟩
  refine ⟨before ++ front, ?_, ?_⟩
  · rw [List.append_assoc]
  · rw [List.count_append]
    omega

/-- Behind a newline the column is known again. -/
theorem OnLineOf.pointsTo_next (onLine : OnLineOf text position ('\n' :: tail)) :
    PointsTo text ⟨position.line + 1, 1⟩ tail := by
  rcases onLine with ⟨before, rfl, here⟩
  refine ⟨before ++ ['\n'], by simp, ?_⟩
  have line := line_past ⟨1, 1⟩ before
  rw [past_append, here, ← line]
  rfl

/-- What is unread, with something behind it, begins at the position; at the end of a line it is
only known to begin on its line, and nothing is known of the end of the text. -/
structure StandsAt (text : List Char) (position : Position) (unread behind : List Char) : Prop where
  line : unread ≠ [] → OnLineOf text position (unread ++ behind)
  column : ∀ {next rest}, unread = next :: rest → next ≠ '\n' →
    PointsTo text position (unread ++ behind)

variable {unread rest behind : List Char}

theorem PointsTo.standsAt (points : PointsTo text position (unread ++ behind)) :
    StandsAt text position unread behind :=
  ⟨fun _ => points.onLineOf, fun _ _ => points⟩

theorem standsAt_nil : StandsAt text position [] behind :=
  ⟨fun someText => absurd rfl someText, nofun⟩

/-- At the end of a line. -/
theorem OnLineOf.standsAt (onLine : OnLineOf text position (unread ++ behind))
    (ends : ∀ next ∈ unread.head?, next = '\n') : StandsAt text position unread behind := by
  refine ⟨fun _ => onLine, ?_⟩
  rintro next rest rfl noNewline
  exact absurd (ends next rfl) noNewline

theorem StandsAt.past (stands : StandsAt text position (front ++ rest) behind) :
    StandsAt text (position.past front) rest behind := by
  cases front with
  | nil => exact stands
  | cons character others =>
      by_cases newline : character = '\n'
      · subst newline
        have line := stands.line (List.cons_ne_nil _ _)
        rw [List.append_assoc] at line
        exact (PointsTo.past line.pointsTo_next).standsAt
      · refine PointsTo.standsAt (PointsTo.past ?_)
        rw [← List.append_assoc]
        exact stands.column rfl newline

theorem StandsAt.right (stands : StandsAt text position (front ++ rest) behind)
    (oneLine : '\n' ∉ front) : StandsAt text (position.right front.length) rest behind :=
  past_eq_right oneLine ▸ stands.past

/-- To the end of a line only the newlines are counted. -/
theorem StandsAt.toLineEnd (stands : StandsAt text position (front ++ rest) behind)
    (ends : ∀ next ∈ rest.head?, next = '\n')
    (line : next.line = position.line + front.count '\n') :
    StandsAt text next rest behind := by
  cases rest with
  | nil => exact standsAt_nil
  | cons character others =>
      have onLine := stands.line (by simp)
      rw [List.append_assoc] at onLine
      exact (onLine.past line).standsAt ends

/-- What is behind a part may be counted to what stands behind. -/
theorem StandsAt.shift (stands : StandsAt text position (front ++ rest) behind) :
    StandsAt text position front (rest ++ behind) := by
  cases front with
  | nil => exact standsAt_nil
  | cons character others =>
      refine ⟨fun _ => ?_, ?_⟩
      · rw [← List.append_assoc]
        exact stands.line (List.cons_ne_nil _ _)
      · rintro next more ⟨⟩ noNewline
        rw [← List.append_assoc]
        exact stands.column rfl noNewline

end Position

open Position

/-! ### Tokens -/

/-- The counting has missed a newline: the text has a backslash in front of one, and an attribute's
value holds one. -/
def Missed (text : List Char) (found : List Token) : Prop :=
  ['\\', '\n'] <:+: text ∧ ∃ token ∈ found, ∃ name value,
    token.kind = .attributeEntry name (.text value) ∧ '\n' ∈ value.toList

theorem Missed.mono {text : List Char} {found more : List Token} (missed : Missed text found)
    (subset : found ⊆ more) : Missed text more := by
  rcases missed with ⟨escaped, token, inFound, entry⟩
  exact ⟨escaped, token, subset inFound, entry⟩

/-- If the token is a tag, its name stands at its position, unless a newline was missed before. -/
def Token.Located (text : List Char) (earlier : List Token) (token : Token) : Prop :=
  ∀ name, token.kind = .tag name → Missed text earlier ∨
    '\n' ∉ name.toList ∧ ∃ behind, PointsTo text token.span.position (name.toList ++ behind)

/-- The tags among the tokens, the last one first, stand at their positions. -/
def Located (text : List Char) : List Token → Prop
  | [] => True
  | token :: earlier => token.Located text earlier ∧ Located text earlier

theorem Located.of_append {text : List Char} {later earlier : List Token}
    (located : Located text (later ++ earlier)) : Located text earlier := by
  induction later with
  | nil => exact located
  | cons _ _ ih => exact ih located.2

/-- Tokens that are no tags may be added. -/
theorem Located.append {text : List Char} {added found : List Token} (located : Located text found)
    (others : ∀ token ∈ added, ∀ name, token.kind ≠ .tag name) :
    Located text (added ++ found) := by
  induction added with
  | nil => exact located
  | cons token rest ih =>
      rw [List.forall_mem_cons] at others
      exact ⟨fun name same => absurd same (others.1 name), ih others.2⟩

/-! ### Scanners -/

/-- What a scanner reads a part of: the whole text, what stands behind the part, the tokens that
were found in front of it, and whether the part is an interpolated tag. The limit is a length that
what is unread does not exceed. -/
structure Frame where
  text : List Char
  behind : List Char
  earlier : List Token
  inside : Bool
  limit : Nat

namespace Scanner

variable {here : Frame} {scanner after : Scanner}

/-- The tokens found so far, in this part and in front of it. -/
def allFound (here : Frame) (scanner : Scanner) : List Token :=
  scanner.found ++ here.earlier

/-- A scanner that goes on stands at its position, and so do the tags that it has found. -/
structure Running (here : Frame) (scanner : Scanner) : Prop where
  interpolated : here.inside = true → scanner.interpolated = true
  ended : scanner.ended = false
  within : scanner.unread.length ≤ here.limit
  oneLine : here.inside = true → '\n' ∉ scanner.unread
  located : Located here.text (scanner.allFound here)
  stands : Missed here.text (scanner.allFound here) ∨
    StandsAt here.text scanner.position scanner.unread here.behind

/-- A scanner at the bracket that closes an interpolated tag. -/
structure Closed (here : Frame) (scanner : Scanner) : Prop where
  within : scanner.unread.length ≤ here.limit
  oneLine : '\n' ∉ scanner.unread
  points : Missed here.text (scanner.allFound here) ∨
    PointsTo here.text scanner.position (']' :: scanner.unread ++ here.behind)

/-- A scanner has ended, in an interpolated tag at the bracket. -/
structure Stopped (here : Frame) (scanner : Scanner) : Prop where
  ended : scanner.ended = true
  located : Located here.text (scanner.allFound here)
  closed : here.inside = true → Closed here scanner

namespace Running

/-- The scanner may go to another place. -/
theorem move (running : Running here scanner)
    (interpolated : after.interpolated = scanner.interpolated) (ended : after.ended = scanner.ended)
    (found : after.found = scanner.found) (unread : after.unread <:+ scanner.unread)
    (stands : StandsAt here.text scanner.position scanner.unread here.behind →
      StandsAt here.text after.position after.unread here.behind) : Running here after where
  interpolated inside := interpolated.trans (running.interpolated inside)
  ended := ended.trans running.ended
  within := Nat.le_trans unread.length_le running.within
  oneLine inside newline := running.oneLine inside (unread.subset newline)
  located := by
    rw [allFound, found]
    exact running.located
  stands := by
    rw [allFound, found]
    exact running.stands.imp_right stands

/-- The limit may be any length that is not exceeded. -/
theorem limit (running : Running here scanner) {limit : Nat}
    (within : scanner.unread.length ≤ limit) : Running { here with limit := limit } scanner :=
  ⟨running.interpolated, running.ended, within, running.oneLine, running.located, running.stands⟩

/-- A part of a line is read. -/
theorem read (running : Running here scanner) {front rest : List Char}
    (unread : scanner.unread = front ++ rest) (oneLine : '\n' ∉ front) :
    Running here { scanner.right front.length with unread := rest } :=
  running.move rfl rfl rfl (unread ▸ List.suffix_append front rest) fun stands => by
    rw [unread] at stands
    exact stands.right oneLine

theorem readCount (running : Running here scanner) (front : List Char) {rest : List Char}
    {count : Nat} (unread : scanner.unread = front ++ rest) (oneLine : '\n' ∉ front)
    (length : front.length = count) :
    Running here { scanner.right count with unread := rest } :=
  length ▸ running.read unread oneLine

/-- A text is read that may hold newlines. -/
theorem readPast (running : Running here scanner) {body rest : List Char}
    (unread : scanner.unread = body ++ rest) :
    Running here { scanner.past body with unread := rest } :=
  running.move rfl rfl rfl (unread ▸ List.suffix_append body rest) fun stands => by
    rw [unread] at stands
    exact stands.past

/-- Tokens that are no tags are added. -/
theorem add (running : Running here scanner) (added : List Token)
    (others : ∀ token ∈ added, ∀ name, token.kind ≠ .tag name)
    (interpolated : after.interpolated = scanner.interpolated)
    (ended : after.ended = scanner.ended) (found : after.found = added ++ scanner.found)
    (unread : after.unread = scanner.unread) (position : after.position = scanner.position) :
    Running here after := by
  have all : after.allFound here = added ++ scanner.allFound here := by
    rw [allFound, allFound, found, List.append_assoc]
  refine ⟨fun inside => interpolated.trans (running.interpolated inside),
    ended.trans running.ended, unread ▸ running.within, unread ▸ running.oneLine, ?_, ?_⟩
  · exact all ▸ running.located.append others
  · rw [all, unread, position]
    exact running.stands.imp_left fun missed => missed.mono (List.subset_append_right _ _)

theorem pushToken (running : Running here scanner) {token : Token}
    (other : ∀ name, token.kind ≠ .tag name) : Running here (scanner.pushToken token) :=
  running.add [token] (by simpa using other) rfl rfl rfl rfl rfl

theorem push (running : Running here scanner) {kind : TokenKind} {start : Position}
    (other : ∀ name, kind ≠ .tag name) : Running here (scanner.push kind start) :=
  running.pushToken other

theorem emit (running : Running here scanner) {kind : TokenKind} {count : Nat}
    (other : ∀ name, kind ≠ .tag name) (oneLine : '\n' ∉ scanner.unread.take count) :
    Running here (scanner.emit kind count) :=
  (running.read (List.take_append_drop count scanner.unread).symm oneLine).push other

end Running

end Scanner

end Offside
