import Offside.Proofs.BlankLine.Twin
import Offside.Proofs.Position.Words

/-!
# Words in two texts

The rules for keywords, names and signs look no further than the line on which a scanner is.
-/

namespace Offside

open Computing Scanner Text

variable {front rest rest' : List Char} {scanner other : Scanner} {keyword : String}

namespace Text

/-- A text begins with a character other than a newline if its front does. -/
theorem AtLineEnd.exists_cons {character : Char} {others : List Char} (ends : AtLineEnd rest)
    (noNewline : character ≠ '\n') (begins : front ++ rest = character :: others) :
    ∃ line, front = character :: line ∧ others = line ++ rest := by
  cases front with
  | nil =>
      rw [List.nil_append] at begins
      exact absurd (ends character (by simp [begins])) noNewline
  | cons first line =>
      injection begins with same behind
      exact ⟨line, congrArg (· :: line) same, behind.symm⟩

theorem AtLineEnd.afterKeyword?_append (ends : AtLineEnd rest) (oneLine : '\n' ∉ keyword.toList) :
    afterKeyword? keyword (front ++ rest) = (afterKeyword? keyword front).map (· ++ rest) :=
  ends.after?_append oneLine

theorem length_afterKeyword? (found : afterKeyword? keyword front = some rest) :
    front.length = keyword.length + rest.length := by
  rw [afterKeyword?, after?_eq_some_iff] at found
  rw [found, List.length_append, String.length_toList]

/-- The end of a line behind some blanks. -/
def blankEnd? (text : List Char) : Option (List Char) :=
  match text.dropWhile isIndentation with
  | [] => some []
  | '\n' :: others => some ('\n' :: others)
  | _ => none

/-- What is left of a text behind a word that ends its line, or stands in front of a colon. -/
def lineEnd? (text : List Char) : Option (List Char) :=
  match text with
  | ':' :: _ => some text
  | _ => blankEnd? text

theorem lineEnd?_of_ne_colon {text : List Char} (noColon : ∀ others, text ≠ ':' :: others) :
    lineEnd? text = blankEnd? text := by
  unfold lineEnd?
  split
  · exact absurd rfl (noColon _)
  · rfl

theorem AtLineEnd.blankEnd?_append (ends : AtLineEnd rest) (line : List Char) :
    blankEnd? (line ++ rest) = (blankEnd? line).map (· ++ rest) := by
  unfold blankEnd?
  rw [ends.dropWhile_append (by decide)]
  cases line.dropWhile isIndentation with
  | nil =>
      cases rest with
      | nil => rfl
      | cons next back =>
          obtain rfl := ends next rfl
          rfl
  | cons first others =>
      by_cases newline : first = '\n'
      · subst newline
        rfl
      · simp [newline]

theorem AtLineEnd.lineEnd?_append (ends : AtLineEnd rest) (line : List Char) :
    lineEnd? (line ++ rest) = (lineEnd? line).map (· ++ rest) := by
  by_cases colon : ∃ others, line = ':' :: others
  · rcases colon with ⟨others, rfl⟩
    rfl
  · rw [lineEnd?_of_ne_colon, lineEnd?_of_ne_colon, ends.blankEnd?_append]
    · exact fun others same => colon ⟨others, same⟩
    · intro others begins
      rcases ends.exists_cons (by decide) begins with ⟨more, same, _⟩
      exact colon ⟨more, same⟩

theorem suffix_of_lineEnd? {text left : List Char} (found : lineEnd? text = some left) :
    left <:+ text := by
  unfold lineEnd? at found
  split at found
  · cases found
    exact List.suffix_rfl
  · have blanks := List.dropWhile_suffix isIndentation (l := text)
    unfold blankEnd? at found
    split at found
    · cases found
      exact List.nil_suffix
    · next behind =>
        cases found
        exact behind ▸ blanks
    · cases found

end Text

namespace Rule

/-- What ends its line is a token, which stands behind its spaces. -/
theorem endOfLine?_eq (scanner : Scanner) (matched text : List Char) (kind : TokenKind) :
    scanner.endOfLine? matched text kind = (lineEnd? text).map fun left =>
      (⟨kind, .start scanner.file
          (scanner.position.right (matched.takeWhile (· == ' ')).length),
          scanner.position.right matched.length⟩,
        { scanner with unread := left, position := scanner.position.right matched.length }) := by
  unfold endOfLine?
  split
  · rfl
  · next noColon =>
      rw [lineEnd?_of_ne_colon noColon, blankEnd?]
      cases text.dropWhile isIndentation with
      | nil => rfl
      | cons first others =>
          by_cases newline : first = '\n'
          · subst newline
            rfl
          · simp [newline]

/-- Each scanner finds a token, the same in both but for the line, and goes on behind it. -/
def SameFind (limit : Nat) (rest rest' : List Char) (found found' : Token × Scanner) : Prop :=
  found'.1.lineless = found.1.lineless ∧ Twins limit rest rest' found.2 found'.2

/-- What ends a line behind a word. -/
theorem mirrors_endOfLine? (spaced : Spaced rest rest')
    (twin : Twin front rest rest' scanner other) (matched line : List Char) (kind : TokenKind)
    {limit : Nat} (fits : line.length ≤ limit) :
    Option.Rel (SameFind limit rest rest') (scanner.endOfLine? matched (line ++ rest) kind)
      (other.endOfLine? matched (line ++ rest') kind) := by
  rw [endOfLine?_eq, endOfLine?_eq, spaced.left.lineEnd?_append, spaced.right.lineEnd?_append]
  cases found : lineEnd? line with
  | none => exact .none
  | some left =>
      have within := Nat.le_trans (suffix_of_lineEnd? found).length_le fits
      refine .some ⟨?_, (twin.read left ?_).twins within⟩
      · simp [Token.lineless, Token.renumber, Span.renumber, Span.start, Position.right, twin.file,
          twin.column]
      · exact congrArg (· + _) twin.column

theorem mirrors_keywordLine (oneLine : '\n' ∉ keyword.toList) (kind : TokenKind) :
    SimpleRule.Mirrors (keywordLine keyword kind) := by
  intro front rest rest' scanner other spaced twin
  unfold keywordLine
  rw [twin.unread, twin.unreadOther, spaced.left.afterKeyword?_append oneLine,
    spaced.right.afterKeyword?_append oneLine]
  cases found : afterKeyword? keyword front with
  | none => exact .none
  | some line =>
      have fits : line.length ≤ front.length := by
        rw [length_afterKeyword? found]
        exact Nat.le_add_left _ _
      refine rel_bind (mirrors_endOfLine? spaced twin keyword.toList line kind fits) ?_
      rintro ⟨token, next⟩ ⟨token', next'⟩ ⟨sameToken, left, within, twinLeft⟩
      exact .some ((twinLeft.pushToken sameToken).twins within)

theorem opensWith_append (ends : AtLineEnd rest) {stops : List Char}
    (oneLine : '\n' ∉ keyword.toList) (stopsThere : '\n' ∈ stops) :
    opensWith keyword stops (front ++ rest) = opensWith keyword stops front := by
  unfold opensWith
  rw [ends.afterKeyword?_append oneLine]
  cases afterKeyword? keyword front with
  | none => rfl
  | some line =>
      cases line with
      | cons => rfl
      | nil =>
          cases rest with
          | nil => rfl
          | cons next back =>
              obtain rfl := ends next rfl
              simpa using stopsThere

theorem atWordBoundary_append (ends : AtLineEnd rest) (oneLine : '\n' ∉ keyword.toList) :
    atWordBoundary keyword (front ++ rest) = atWordBoundary keyword front := by
  unfold atWordBoundary
  rw [ends.afterKeyword?_append oneLine]
  cases afterKeyword? keyword front with
  | none => rfl
  | some line =>
      cases line with
      | cons => rfl
      | nil =>
          cases rest with
          | nil => rfl
          | cons next back =>
              obtain rfl := ends next rfl
              rfl

theorem length_firstLine_le (text : List Char) : (firstLine text).length ≤ text.length :=
  (List.takeWhile_prefix _).length_le

theorem mirrors_doctype : SimpleRule.Mirrors doctype := by
  intro front rest rest' scanner other spaced twin
  unfold doctype
  rw [twin.unread, twin.unreadOther, opensWith_append spaced.left (by decide) (by decide),
    opensWith_append spaced.right (by decide) (by decide), spaced.left.firstLine_append,
    spaced.right.firstLine_append]
  split
  · exact .some (twin.twins_emit _ (length_firstLine_le front) (Nat.le_refl _))
  · exact .none

theorem mirrors_defaultKeyword : CheckedRule.Mirrors defaultKeyword := by
  intro front rest rest' scanner other spaced twin
  have line := @mirrors_keywordLine "default" (by decide) .default _ _ _ _ _ spaced twin
  unfold defaultKeyword
  revert line
  cases keywordLine "default" .default scanner <;> cases keywordLine "default" .default other <;>
    rintro ⟨⟩
  · dsimp only
    rw [twin.unread, twin.unreadOther, atWordBoundary_append spaced.left (by decide),
      atWordBoundary_append spaced.right (by decide)]
    split
    · exact .error rfl
    · exact .ok .none
  · next related => exact .ok (.some related)

theorem mirrors_endInterpolation : SimpleRule.Mirrors endInterpolation := by
  intro front rest rest' scanner other spaced twin
  unfold endInterpolation
  rw [twin.unread, twin.unreadOther, twin.interpolated]
  cases front with
  | nil => cases scanner.interpolated <;> cases spaced <;> exact .none
  | cons first line =>
      by_cases bracket : first = ']'
      · subst bracket
        cases scanner.interpolated with
        | false => exact .none
        | true =>
            have behind : Twin line rest rest'
                { scanner with interpolated := true, unread := line ++ rest, ended := true }
                { other with interpolated := true, unread := line ++ rest', ended := true } :=
              { twin with interpolated := rfl, unread := rfl, unreadOther := rfl, ended := rfl }
            exact .some (behind.twins (Nat.le_succ _))
      · cases scanner.interpolated <;> simp [bracket]

theorem mirrors_tag : SimpleRule.Mirrors tag := by
  intro front rest rest' scanner other spaced twin
  unfold tag
  rw [twin.unread, twin.unreadOther]
  cases front with
  | nil => cases spaced <;> exact .none
  | cons first line =>
      simp only [List.cons_append]
      split
      · next word =>
          rw [← List.cons_append, ← List.cons_append, spaced.left.takeWhile_append (by decide),
            spaced.right.takeWhile_append (by decide)]
          refine .some (twin.twins_emit _ ?_ (Nat.le_refl _))
          exact ((isPrefix_dropEndWhile _ _).trans (List.takeWhile_prefix _)).length_le
      · exact .none

/-- A sign, and a name behind it. -/
theorem length_name_le (sign : Char) (line : List Char) (condition : Char → Bool) :
    1 + (line.takeWhile condition).length ≤ (sign :: line).length := by
  have shorter := (List.takeWhile_prefix condition (l := line)).length_le
  rw [List.length_cons]
  omega

theorem mirrors_id : CheckedRule.Mirrors id := by
  intro front rest rest' scanner other spaced twin
  unfold id
  rw [twin.unread, twin.unreadOther]
  cases front with
  | nil => cases spaced <;> exact .ok .none
  | cons first line =>
      by_cases hash : first = '#'
      · subst hash
        simp only [List.cons_append]
        rw [spaced.left.takeWhile_append (by decide), spaced.right.takeWhile_append (by decide)]
        split
        · exact .error rfl
        · exact .ok (.some (twin.twins_emit _ (length_name_le _ _ _) (Nat.le_refl _)))
      · simp only [List.cons_append]
        split <;> split <;> simp_all
        exact .ok .none

theorem mirrors_className : CheckedRule.Mirrors className := by
  intro front rest rest' scanner other spaced twin
  unfold className
  rw [twin.unread, twin.unreadOther]
  cases front with
  | nil => cases spaced <;> exact .ok .none
  | cons first line =>
      by_cases dot : first = '.'
      · subst dot
        simp only [List.cons_append]
        rw [spaced.left.takeWhile_append (by decide), spaced.right.takeWhile_append (by decide)]
        split
        · exact .ok (.some (twin.twins_emit _ (length_name_le _ _ _) (Nat.le_refl _)))
        · split <;> exact .error rfl
      · simp only [List.cons_append]
        split <;> split <;> simp_all
        exact .ok .none

theorem mirrors_slash : SimpleRule.Mirrors slash := by
  intro front rest rest' scanner other spaced twin
  unfold slash
  rw [twin.unread, twin.unreadOther]
  cases front with
  | nil => cases spaced <;> exact .none
  | cons first line =>
      by_cases slash : first = '/'
      · subst slash
        exact .some (twin.twins_emit _ (Nat.le_add_left _ _) (Nat.le_refl _))
      · simp [slash]

theorem mirrors_colon : SimpleRule.Mirrors colon := by
  intro front rest rest' scanner other spaced twin
  unfold colon
  rw [twin.unread, twin.unreadOther]
  cases front with
  | nil => cases spaced <;> exact .none
  | cons first line =>
      by_cases colon : first = ':'
      · subst colon
        simp only [List.cons_append]
        rw [spaced.left.takeWhile_append (by decide), spaced.right.takeWhile_append (by decide)]
        split
        · exact .none
        · exact .some (twin.twins_emit _ (length_name_le _ _ _) (Nat.le_refl _))
      · simp [colon]

/-! ### Keywords with a name -/

theorem keywordSpaces?_append (ends : AtLineEnd rest) (oneLine : '\n' ∉ keyword.toList) :
    keywordSpaces? keyword (front ++ rest) =
      (keywordSpaces? keyword front).map fun (head, line) => (head, line ++ rest) := by
  unfold keywordSpaces?
  rw [ends.afterKeyword?_append oneLine]
  cases afterKeyword? keyword front with
  | none => rfl
  | some line =>
      simp only [Option.map_some, Option.bind_eq_bind, Option.bind_some]
      rw [ends.takeWhile_append (by decide), ends.dropWhile_append (by decide)]
      split <;> rfl

theorem blockHead?_append (ends : AtLineEnd rest) (oneLine : '\n' ∉ keyword.toList)
    (afterBlock : Bool) :
    blockHead? keyword afterBlock (front ++ rest) =
      (blockHead? keyword afterBlock front).map fun (head, line) => (head, line ++ rest) := by
  unfold blockHead?
  rw [keywordSpaces?_append ends oneLine, keywordSpaces?_append ends (by decide)]
  cases afterBlock with
  | false => simp
  | true =>
      cases keywordSpaces? "block" front with
      | none => simp
      | some found =>
          rcases found with ⟨head, line⟩
          simp only [if_true, Option.map_some, Option.bind_eq_bind, Option.bind_some]
          rw [keywordSpaces?_append ends oneLine]
          cases keywordSpaces? keyword line with
          | none => simp
          | some found => simp

theorem mirrors_namedBlock (oneLine : '\n' ∉ keyword.toList) (afterBlock : Bool)
    (mode : BlockMode) : SimpleRule.Mirrors (namedBlock keyword afterBlock mode) := by
  intro front rest rest' scanner other spaced twin
  unfold namedBlock
  rw [twin.unread, twin.unreadOther, blockHead?_append spaced.left oneLine,
    blockHead?_append spaced.right oneLine]
  cases found : blockHead? keyword afterBlock front with
  | none => exact .none
  | some parts =>
      rcases parts with ⟨head, line⟩
      have shorter : line.length ≤ front.length := by
        rw [(eq_append_of_blockHead? oneLine found).1, List.length_append]
        exact Nat.le_add_left _ _
      simp only [Option.map_some, Option.bind_eq_bind, Option.bind_some]
      rw [spaced.left.firstLine_append, spaced.right.firstLine_append]
      have within : (beforeComment (firstLine line)).length ≤ line.length :=
        ((isPrefix_beforeComment _).trans (List.takeWhile_prefix _)).length_le
      rw [List.drop_append_of_le_length within, List.drop_append_of_le_length within]
      split
      · exact .none
      · have named := (twin.right (head.length + (dropEndWhile isSeparator
          (beforeComment (firstLine line))).length)).push (.namedBlock (String.ofList
            (trim (beforeComment (firstLine line)))) mode) twin.column
        refine .some ((named.read _ ?_).twins ?_)
        · exact congrArg (· + _) named.column
        · exact Nat.le_trans (List.drop_suffix _ _).length_le shorter

theorem mirrors_mixin : SimpleRule.Mirrors mixin := by
  intro front rest rest' scanner other spaced twin
  unfold mixin
  rw [twin.unread, twin.unreadOther, keywordSpaces?_append spaced.left (by decide),
    keywordSpaces?_append spaced.right (by decide)]
  cases found : keywordSpaces? "mixin" front with
  | none => exact .none
  | some parts =>
      rcases parts with ⟨head, line⟩
      have within : line.length + head.length ≤ front.length := by
        rw [(eq_append_of_keywordSpaces? (by decide) found).1, List.length_append, Nat.add_comm]
      have nameFits := (List.takeWhile_prefix isWordOrDash (l := line)).length_le
      simp only [Option.map_some, Option.bind_eq_bind, Option.bind_some]
      rw [spaced.left.takeWhile_append (by decide), spaced.right.takeWhile_append (by decide)]
      split
      · exact .none
      rw [List.drop_append_of_le_length nameFits, List.drop_append_of_le_length nameFits]
      have behindFits : (line.drop (line.takeWhile isWordOrDash).length).length +
          (line.takeWhile isWordOrDash).length = line.length := by
        rw [List.length_drop]
        omega
      generalize line.drop (line.takeWhile isWordOrDash).length = behind at behindFits ⊢
      rw [spaced.left.firstLine_append, spaced.right.firstLine_append,
        spaced.left.takeWhile_append (by decide), spaced.right.takeWhile_append (by decide)]
      have emits : ∀ (kind : TokenKind) (bracketed : Nat), bracketed ≤ behind.length →
          Option.Rel (Twins front.length rest rest')
            (some (scanner.emit kind (head.length + (line.takeWhile isWordOrDash).length +
              bracketed + (((behind ++ rest).drop bracketed).takeWhile (· == ' ')).length)))
            (some (other.emit kind (head.length + (line.takeWhile isWordOrDash).length +
              bracketed + (((behind ++ rest').drop bracketed).takeWhile (· == ' ')).length))) := by
        intro kind bracketed fits
        rw [List.drop_append_of_le_length fits, List.drop_append_of_le_length fits,
          spaced.left.takeWhile_append (by decide), spaced.right.takeWhile_append (by decide)]
        refine .some (twin.twins_emit kind ?_ (Nat.le_refl _))
        have trailing := (List.takeWhile_prefix (· == ' ') (l := behind.drop bracketed)).length_le
        rw [List.length_drop] at trailing
        omega
      split
      · next inside opening =>
          cases last : splitLast? ')' inside with
          | none => exact emits _ 0 (Nat.zero_le _)
          | some cut =>
              rcases cut with ⟨arguments, back⟩
              have inLine := congrArg List.length
                (List.takeWhile_append_dropWhile (p := (· == ' ')) (l := firstLine behind))
              rw [opening, takeWhile_firstLine rfl, eq_append_of_splitLast? last] at inLine
              simp only [List.length_append, List.length_cons] at inLine
              have lineFits := length_firstLine_le behind
              exact emits _ ((behind.takeWhile (· == ' ')).length + arguments.length + 2) (by omega)
      · exact emits _ 0 (Nat.zero_le _)

/-! ### Paths -/

section

variable {limit : Nat}

theorem mirrored_path (spaced : Spaced rest rest') (twins : Twins limit rest rest' scanner other) :
    Scanning.Mirrored limit rest rest' path path scanner other := by
  rcases twins with ⟨front, fits, twin⟩
  have twins := twin.twins fits
  unfold Scanning.Mirrored path
  rw [twin.unread, twin.unreadOther]
  cases front with
  | nil => cases spaced <;> exact ⟨rfl, twins⟩
  | cons first line =>
      by_cases space : first = ' '
      · subst space
        simp only [List.cons_append]
        rw [spaced.left.firstLine_append, spaced.right.firstLine_append]
        have within := length_firstLine_le line
        rw [List.drop_append_of_le_length within, List.drop_append_of_le_length within]
        split
        · exact ⟨rfl, twins⟩
        · have shorter : (line.drop (firstLine line).length).length ≤ limit :=
            Nat.le_trans (List.drop_suffix _ _).length_le
              (Nat.le_trans (Nat.le_succ line.length) fits)
          have found := mirrors_endOfLine? spaced twin (' ' :: firstLine line)
            (line.drop (firstLine line).length)
            (.path (String.ofList (trim (firstLine line)))) shorter
          revert found
          generalize scanner.endOfLine? _ _ _ = result
          generalize other.endOfLine? _ _ _ = result'
          rintro (⟨sameToken, left, fitsLeft, twinLeft⟩ | _)
          · dsimp only
            split
            · exact ⟨rfl, twinLeft.twins fitsLeft⟩
            · exact ⟨rfl, (twinLeft.pushToken sameToken).twins fitsLeft⟩
          · exact ⟨rfl, twins⟩
      · simp only [List.cons_append]
        split <;> split <;> simp_all
        exact ⟨rfl, twins⟩

theorem length_of_opensWith {stops : List Char} (opens : opensWith keyword stops front = true) :
    keyword.length ≤ front.length := by
  rcases exists_append_of_opensWith opens with ⟨behind, rfl⟩
  rw [List.length_append, String.length_toList]
  exact Nat.le_add_right _ _

theorem mirrored_inheritance (spaced : Spaced rest rest')
    (twins : Twins limit rest rest' scanner other) {path : Scanning Bool}
    (mirrored : ∀ scanner other, Twins limit rest rest' scanner other →
      Scanning.Mirrored limit rest rest' path path scanner other) :
    Scanning.Mirrored limit rest rest' (inheritance path) (inheritance path) scanner other := by
  rcases twins with ⟨front, fits, twin⟩
  unfold inheritance
  extract_lets announce
  have announces : ∀ keyword stops, opensWith keyword stops front = true →
      Scanning.Mirrored limit rest rest' (announce keyword) (announce keyword) scanner other := by
    intro keyword stops opens
    have emitted := twin.twins_emit .inheritance (length_of_opensWith opens) fits
    refine .modify_bind ((mirrored _ _ emitted).bind ?_)
    intro matched middle middle' further
    cases matched with
    | true => exact .pure further true
    | false => exact .throw further rfl
  refine .get_bind ?_
  rw [twin.unread, twin.unreadOther]
  rw [opensWith_append spaced.left (by decide) (by decide),
    opensWith_append spaced.right (by decide) (by decide)]
  split
  · next opens => exact announces _ _ opens
  rw [opensWith_append spaced.left (by decide) (by decide),
    opensWith_append spaced.right (by decide) (by decide)]
  split
  · next opens => exact announces _ _ opens
  rw [atWordBoundary_append spaced.left (by decide), atWordBoundary_append spaced.right (by decide),
    atWordBoundary_append spaced.left (by decide), atWordBoundary_append spaced.right (by decide)]
  split
  · exact .throw (twin.twins fits) rfl
  · exact .pure (twin.twins fits) false

theorem mirrored_inclusion (spaced : Spaced rest rest')
    (twins : Twins limit rest rest' scanner other) {filter path : Scanning Bool}
    (filters : opensWith "include" [':', ' ', '\n'] scanner.unread = true →
      Twins limit rest rest' (scanner.emit .inclusion "include".length)
        (other.emit .inclusion "include".length) →
      Scanning.Mirrored limit rest rest' (repeatRule filter scanner.unread.length)
        (repeatRule filter other.unread.length) (scanner.emit .inclusion "include".length)
        (other.emit .inclusion "include".length))
    (mirrored : ∀ scanner other, Twins limit rest rest' scanner other →
      Scanning.Mirrored limit rest rest' path path scanner other) :
    Scanning.Mirrored limit rest rest' (inclusion filter path) (inclusion filter path) scanner
      other := by
  rcases twins with ⟨front, fits, twin⟩
  refine .get_bind ?_
  have opensSame : opensWith "include" [':', ' ', '\n'] other.unread =
      opensWith "include" [':', ' ', '\n'] scanner.unread := by
    rw [twin.unread, twin.unreadOther, opensWith_append spaced.left (by decide) (by decide),
      opensWith_append spaced.right (by decide) (by decide)]
  have boundarySame : atWordBoundary "include" other.unread =
      atWordBoundary "include" scanner.unread := by
    rw [twin.unread, twin.unreadOther, atWordBoundary_append spaced.left (by decide),
      atWordBoundary_append spaced.right (by decide)]
  rw [opensSame, boundarySame]
  split
  · next opens =>
      have inFront := opens
      rw [twin.unread, opensWith_append spaced.left (by decide) (by decide)] at inFront
      have emitted := twin.twins_emit .inclusion (length_of_opensWith inFront) fits
      refine .set_bind ((filters opens emitted).bind ?_)
      intro _ middle middle' further
      refine (mirrored _ _ further).bind ?_
      intro matched stopped stopped' last
      cases matched with
      | true => exact .pure last true
      | false =>
          refine .get_bind ?_
          rcases last with ⟨left, fitsLeft, twinLeft⟩
          have twinsLeft := twinLeft.twins fitsLeft
          rw [twinLeft.unread, twinLeft.unreadOther]
          cases left with
          | nil => cases spaced <;> exact .throw twinsLeft rfl
          | cons first line =>
              simp only [List.cons_append]
              split <;> split <;> simp_all
              all_goals exact .throw twinsLeft rfl
  · split
    · exact .throw (twin.twins fits) rfl
    · exact .pure (twin.twins fits) false

end

end Rule

end Offside
