import Offside.Proofs.BlankLine.Words
import Offside.Token.Attribute

/-!
# Brackets in two texts

A bracket that closes on its line holds the same text in both texts. Where it does not close at all
both scanners fail for the same reason.
-/

namespace Offside

open Computing Scanner Text

/-! ### Attribute lists -/

/-- Two cursors in the same list, at the same column. -/
structure AttributeCursor.Same (cursor cursor' : AttributeCursor) : Prop where
  rest : cursor'.rest = cursor.rest
  column : cursor'.position.column = cursor.position.column

namespace AttributeCursor.Same

variable {cursor cursor' : AttributeCursor}

theorem skip (same : Same cursor cursor') : Same cursor.skip cursor'.skip := by
  unfold AttributeCursor.skip
  rw [same.rest]
  exact ⟨rfl, column_past same.column _⟩

theorem readQuoted (quote : Char) (text : List Char) {position position' : Position}
    (column : position'.column = position.column) :
    (readQuoted quote text position').1 = (readQuoted quote text position).1 ∧
      Same (readQuoted quote text position).2 (readQuoted quote text position').2 := by
  fun_induction Offside.readQuoted quote text position generalizing position' with
  | case1 => exact ⟨rfl, rfl, column⟩
  | case2 escaped rest position value cursor read ih =>
      have behind := @ih (position'.right 2) (congrArg (· + 2) column)
      rw [read] at behind
      exact ⟨congrArg (unescape escaped :: ·) behind.1, behind.2⟩
  | case3 rest position noEscape =>
      rw [Offside.readQuoted, if_pos rfl]
      · exact ⟨rfl, rfl, congrArg (· + 1) column⟩
      · exact noEscape
  | case4 character rest position noEscape other value cursor read ih =>
      have after : (position'.after character).column = (position.after character).column :=
        column_past column [character]
      have behind := ih after
      rw [read] at behind
      rw [Offside.readQuoted, if_neg other]
      · exact ⟨congrArg (character :: ·) behind.1, behind.2⟩
      · exact noEscape

theorem readName (same : Same cursor cursor') :
    (readName cursor').1 = (readName cursor).1 ∧
      (readName cursor').2.1 = (readName cursor).2.1 ∧
        Same (readName cursor).2.2 (readName cursor').2.2 := by
  unfold Offside.readName
  rw [same.rest]
  split
  · exact ⟨rfl, rfl, same⟩
  · split
    · have opened : (cursor'.position.right 1).column = (cursor.position.right 1).column :=
        congrArg (· + 1) same.column
      have inside := column_past opened
      split
      · exact ⟨rfl, rfl, rfl, inside _⟩
      · exact ⟨rfl, rfl, rfl, congrArg (· + 1) (inside _)⟩
    · exact ⟨rfl, rfl, rfl, column_past same.column _⟩

theorem readValue (same : Same cursor cursor') :
    (readValue cursor').1 = (readValue cursor).1 ∧
      (readValue cursor').2.1 = (readValue cursor).2.1 ∧
        Same (readValue cursor).2.2 (readValue cursor').2.2 := by
  unfold Offside.readValue
  rw [same.rest]
  split
  · exact ⟨rfl, rfl, same⟩
  · next first rest _ =>
      split
      · exact ⟨rfl, readQuoted first rest (congrArg (· + 1) same.column)⟩
      · exact ⟨rfl, rfl, rfl, column_past same.column _⟩

end AttributeCursor.Same

section

variable {front rest rest' : List Char} {limit : Nat} {scanner other : Scanner}

/-- Both scanners go on in the same way in a list. -/
def SameEntry (front rest rest' : List Char) (found found' : Scanner × List Char) : Prop :=
  found'.2 = found.2 ∧ Twin front rest rest' found.1 found'.1

theorem mirrors_attributeEntry (twin : Twin front rest rest' scanner other) (text : List Char) :
    Both (SameEntry front rest rest') SameReason (attributeEntry scanner text)
      (attributeEntry other text) := by
  have start : AttributeCursor.Same ⟨text, scanner.position⟩ ⟨text, other.position⟩ :=
    ⟨rfl, twin.column⟩
  unfold attributeEntry
  extract_lets entry entry'
  have entrySame : entry.Same entry' := start.skip
  rw [entrySame.rest]
  split
  · exact .ok ⟨rfl, { twin with column := entrySame.column }⟩
  have named := entrySame.readName
  clear_value entry entry'
  rcases read : readName entry with ⟨nameQuote, name, cursor⟩
  rcases read' : readName entry' with ⟨_, _, cursor'⟩
  rw [read, read'] at named
  obtain ⟨⟨⟩, ⟨⟩, behind⟩ := named
  replace behind : cursor.Same cursor' := behind
  have finished : ∀ (value : AttributeValue) (last last' : AttributeCursor), last.Same last' →
      Both (SameEntry front rest rest') SameReason
        (pure ({ ({ scanner with position := last.position }).push
            (.attributeEntry (String.ofList name) value) entry.position with
              position := last.skip.position }, last.skip.rest))
        (pure ({ ({ other with position := last'.position }).push
            (.attributeEntry (String.ofList name) value) entry'.position with
              position := last'.skip.position }, last'.skip.rest)) := by
    intro value last last' same
    have moved : Twin front rest rest' { scanner with position := last.position }
        { other with position := last'.position } := { twin with column := same.column }
    exact .ok ⟨same.skip.rest, { moved.push (.attributeEntry (String.ofList name) value)
      entrySame.column with column := same.skip.column }⟩
  dsimp only
  split
  · exact .throw_bind .refl
  split
  · exact .throw_bind .refl
  rw [behind.skip.rest]
  split
  case' h_1 others _ =>
    have equals : AttributeCursor.Same ⟨others, cursor.skip.position.right 1⟩
        ⟨others, cursor'.skip.position.right 1⟩ :=
      ⟨rfl, congrArg (· + 1) behind.skip.column⟩
    have valued := equals.skip.readValue
    rcases read : readValue (AttributeCursor.skip ⟨others, cursor.skip.position.right 1⟩) with
      ⟨quote, value, last⟩
    rcases read' : readValue (AttributeCursor.skip ⟨others, cursor'.skip.position.right 1⟩) with
      ⟨_, _, last'⟩
    rw [read, read'] at valued
    obtain ⟨⟨⟩, ⟨⟩, same⟩ := valued
    replace same : last.Same last' := same
  case' h_2 => have same : cursor.skip.Same cursor'.skip := behind.skip
  all_goals
    dsimp only
    split
    · rw [same.rest]
      split
      · split
        · exact .throw_bind .refl
        · exact finished _ _ _ same
      · exact finished _ _ _ same
    · exact finished _ _ _ same

theorem mirrors_attributeEntries (twin : Twin front rest rest' scanner other) (budget : Nat)
    (text : List Char) :
    Both (Twin front rest rest') SameReason (attributeEntries scanner budget text)
      (attributeEntries other budget text) := by
  fun_induction attributeEntries scanner budget text generalizing other with
  | case1 => exact .ok twin
  | case2 => exact .ok twin
  | case3 scanner budget text someText ih =>
      rw [attributeEntries]
      · refine (mirrors_attributeEntry twin text).bind ?_
        rintro ⟨next, left⟩ ⟨next', _⟩ ⟨⟨⟩, twinNext⟩
        exact ih next left twinNext
      · exact someText

/-! ### Brackets -/

/-- The bracket that a text goes up to closes on the same line, if it does close. -/
def ClosesOnLine (close : Char) (text : List Char) : Prop :=
  ∀ body behind, Bracket.find close text = .closed body behind → '\n' ∉ body

/-- Where a text begins with an attribute list, a variable in place of a name, or the arguments of a
call: the bracket that closes, and the text behind the one that opens. -/
def bracketBehind? : List Char → Option (Char × List Char)
  | '(' :: inside => some (')', inside)
  | '#' :: '\x7b' :: inside => some ('\x7d', inside)
  | '+' :: rest =>
      let name := (rest.dropWhile isIndentation).takeWhile isWordOrDash
      let behind := (rest.dropWhile isIndentation).drop name.length
      match behind.dropWhile (· == ' ') with
      | '(' :: inside => if name.isEmpty then none else some (')', inside)
      | _ => none
  | _ => none

/-- A text does not begin with a bracket that closes on another line. -/
def StaysOnLine (text : List Char) : Prop :=
  ∀ close inside, bracketBehind? text = some (close, inside) → ClosesOnLine close inside

/-- The arguments of a call close on the line of the call. -/
theorem StaysOnLine.closesOnLine {line : List Char} (stays : StaysOnLine ('+' :: line ++ rest))
    (ends : AtLineEnd rest) (inside : List Char)
    (someName : ¬((line.dropWhile isIndentation).takeWhile isWordOrDash).isEmpty = true)
    (opens : ((line.dropWhile isIndentation).drop
      ((line.dropWhile isIndentation).takeWhile isWordOrDash).length).dropWhile (· == ' ') =
        '(' :: inside) :
    ClosesOnLine ')' (inside ++ rest) := by
  refine stays ')' (inside ++ rest) ?_
  rw [List.cons_append, bracketBehind?, ends.dropWhile_append (by decide),
    ends.takeWhile_append (by decide),
    List.drop_append_of_le_length (List.takeWhile_prefix _).length_le,
    ends.dropWhile_append (by decide), opens]
  exact if_neg someName

/-- Both scanners cut the same text off, up to the bracket, and the rest of the line is the same. -/
def SameCut (limit : Nat) (rest rest' : List Char) (cut cut' : List Char × List Char) : Prop :=
  cut'.1 = cut.1 ∧ ∃ left, left.length ≤ limit ∧ cut.2 = left ++ rest ∧ cut'.2 = left ++ rest'

theorem mirrors_bracketed (spaced : Spaced rest rest') (scanner other : Scanner)
    (opening : List Char) (close : Char) {line : List Char}
    (onLine : rest = [] ∨ ClosesOnLine close (line ++ rest)) :
    Both (SameCut line.length rest rest') SameReason
      (scanner.bracketed opening close (line ++ rest))
      (other.bracketed opening close (line ++ rest')) := by
  have shorter : ∀ {body left behind : List Char},
      Bracket.find close (line ++ behind) = .closed body (left ++ behind) →
        left.length ≤ line.length := by
    intro body left behind closed
    have lengths := congrArg List.length (Bracket.eq_append_of_find_eq_closed closed)
    simp only [List.length_append, List.length_cons] at lengths
    omega
  unfold Scanner.bracketed
  cases spaced with
  | nil =>
      cases closed : Bracket.find close (line ++ []) with
      | closed body left =>
          rw [← List.append_nil left] at closed
          exact .ok ⟨rfl, left, shorter closed, (List.append_nil left).symm,
            (List.append_nil left).symm⟩
      | unclosed => exact .error .refl
      | mismatched => exact .error .refl
  | line blanks back blank =>
      have beside := Bracket.beside_find (.line blanks back blank) close line
      have inLine := onLine.resolve_left (List.cons_ne_nil _ _)
      unfold ClosesOnLine at inLine
      generalize closed : Bracket.find close (line ++ '\n' :: back) = outcome at beside inLine ⊢
      generalize Bracket.find close (line ++ '\n' :: (blanks ++ '\n' :: back)) = outcome'
        at beside ⊢
      cases beside with
      | inside body left => exact .ok ⟨rfl, left, shorter closed, rfl, rfl⟩
      | across newline => exact absurd newline (inLine _ _ rfl)
      | unclosed => exact .error .refl
      | mismatched => exact .error .refl

namespace Rule

variable (spaced : Spaced rest rest') (twin : Twin front rest rest' scanner other)
  (onLine : rest = [] ∨ StaysOnLine scanner.unread)

include spaced twin onLine

theorem mirrors_attributes :
    Both (Option.Rel (Twins front.length rest rest')) SameReason (attributes scanner)
      (attributes other) := by
  rw [twin.unread] at onLine
  unfold attributes
  rw [twin.unread, twin.unreadOther]
  cases front with
  | nil => cases spaced <;> exact .ok .none
  | cons first line =>
      by_cases bracket : first = '('
      · subst bracket
        have closes := onLine.imp_right fun stays => stays _ _ rfl
        refine (mirrors_bracketed spaced scanner other ['('] ')' closes).bind ?_
        rintro ⟨body, behind⟩ ⟨_, behind'⟩ ⟨⟨⟩, left, fits, ⟨⟩, ⟨⟩⟩
        have opened := (twin.right 1).push .startAttributes twin.column
        have cut := opened.read left opened.column
        refine (mirrors_attributeEntries cut (body.length + 1) body).bind ?_
        intro filled filled' twinFilled
        have closed := (twinFilled.right 1).push .endAttributes twinFilled.column
        exact .ok (.some (closed.twins (Nat.le_trans fits (Nat.le_succ _))))
      · simp only [List.cons_append]
        split <;> split <;> simp_all
        exact .ok .none

theorem mirrors_interpolation :
    Both (Option.Rel (Twins front.length rest rest')) SameReason (interpolation scanner)
      (interpolation other) := by
  rw [twin.unread] at onLine
  unfold interpolation
  rw [twin.unread, twin.unreadOther]
  by_cases opens : ∃ line, front = '#' :: '\x7b' :: line
  · rcases opens with ⟨line, rfl⟩
    have closes := onLine.imp_right fun stays => stays _ _ rfl
    refine (mirrors_bracketed spaced scanner other ['#', '\x7b'] '\x7d' closes).bind ?_
    rintro ⟨body, behind⟩ ⟨_, behind'⟩ ⟨⟨⟩, left, fits, ⟨⟩, ⟨⟩⟩
    have closed := (((twin.right 2).past body).right 1).push
      (.interpolation (String.ofList body)) twin.column
    have cut := closed.read left closed.column
    refine .ok (.some (cut.twins (Nat.le_trans fits ?_)))
    rw [List.length_cons, List.length_cons]
    omega
  · have declines : ∀ {behind : List Char}, AtLineEnd behind → ∀ inside,
        front ++ behind = '#' :: '\x7b' :: inside → False := by
      intro behind ends inside begins
      rcases ends.exists_cons (by decide) begins with ⟨line, rfl, others⟩
      rcases ends.exists_cons (by decide) others.symm with ⟨more, rfl, _⟩
      exact opens ⟨more, rfl⟩
    split
    · next begins => exact (declines spaced.left _ begins).elim
    · split
      · next begins => exact (declines spaced.right _ begins).elim
      · exact .ok .none

theorem mirrors_call :
    Both (Option.Rel (Twins front.length rest rest')) SameReason (call scanner) (call other) := by
  rw [twin.unread] at onLine
  unfold call
  rw [twin.unread, twin.unreadOther]
  cases front with
  | nil => cases spaced <;> exact .ok .none
  | cons first line =>
      by_cases plus : first = '+'
      · subst plus
        simp only [List.cons_append]
        rw [spaced.left.takeWhile_append (by decide), spaced.right.takeWhile_append (by decide),
          spaced.left.dropWhile_append (by decide), spaced.right.dropWhile_append (by decide)]
        have shorter := (List.dropWhile_suffix isIndentation (l := line)).length_le
        have opens := fun inside someName found => onLine.imp_right fun stays =>
          stays.closesOnLine spaced.left inside someName found
        generalize (line.takeWhile isIndentation).length = blanks
        generalize line.dropWhile isIndentation = behind at opens shorter ⊢
        rw [spaced.left.takeWhile_append (by decide), spaced.right.takeWhile_append (by decide)]
        split
        · exact .ok .none
        next someName =>
        have within := (List.takeWhile_prefix isWordOrDash (l := behind)).length_le
        rw [List.drop_append_of_le_length within, List.drop_append_of_le_length within]
        replace opens := fun inside => opens inside someName
        replace shorter := Nat.le_trans
          (List.drop_suffix (behind.takeWhile isWordOrDash).length behind).length_le shorter
        generalize behind.drop (behind.takeWhile isWordOrDash).length = others at opens shorter ⊢
        have moved := twin.right (1 + blanks + (behind.takeWhile isWordOrDash).length)
        have named := moved.read others moved.column
        have plain := (named.push (.call (String.ofList (behind.takeWhile isWordOrDash)) none)
          twin.column).twins (Nat.le_trans shorter (Nat.le_succ _))
        rw [spaced.left.takeWhile_append (by decide), spaced.right.takeWhile_append (by decide),
          spaced.left.dropWhile_append (by decide), spaced.right.dropWhile_append (by decide)]
        by_cases bracket : ∃ inside, others.dropWhile (· == ' ') = '(' :: inside
        · rcases bracket with ⟨inside, found⟩
          rw [found]
          refine (mirrors_bracketed spaced _ _ (others.takeWhile (· == ' ') ++ ['(']) ')'
            (opens inside found)).bind ?_
          rintro ⟨body, _⟩ ⟨_, _⟩ ⟨⟨⟩, left, fits, ⟨⟩, ⟨⟩⟩
          dsimp only
          split
          · exact .ok (.some plain)
          · have called := ((((named.right ((others.takeWhile (· == ' ')).length + 1)).past
              body).right 1).push (.call (String.ofList (behind.takeWhile isWordOrDash))
                (some (String.ofList body))) twin.column)
            have cut := called.read left called.column
            refine .ok (.some (cut.twins (Nat.le_trans fits ?_)))
            have inside := (List.dropWhile_suffix (· == ' ') (l := others)).length_le
            rw [found, List.length_cons] at inside
            rw [List.length_cons]
            omega
        · have declines : ∀ {back : List Char}, AtLineEnd back → ∀ inside,
              others.dropWhile (· == ' ') ++ back = '(' :: inside → False := by
            intro back ends inside begins
            rcases ends.exists_cons (by decide) begins with ⟨more, found, _⟩
            exact bracket ⟨more, found⟩
          split
          · next begins => exact (declines spaced.left _ begins).elim
          · split
            · next begins => exact (declines spaced.right _ begins).elim
            · exact .ok (.some plain)
      · simp only [List.cons_append]
        split <;> split <;> simp_all
        exact .ok .none

end Rule

end

end Offside
