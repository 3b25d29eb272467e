import Offside.Proofs.Position.Standing
import Offside.Token.Indentation

/-!
# Rules that stay on a line or go on to the next one

What each of these rules reads of a line is counted by its length, and a newline by a new line.
-/

namespace Offside

open Computing Position Scanner Text

namespace Text

variable {text front rest : List Char} {keyword : String}

theorem takeWhile_firstLine {condition : Char → Bool} (stops : condition '\n' = false) :
    (firstLine text).takeWhile condition = text.takeWhile condition := by
  induction text with
  | nil => rfl
  | cons character others ih =>
      unfold firstLine at ih ⊢
      by_cases newline : character = '\n'
      · simp [newline, stops]
      · rw [List.takeWhile_cons_of_pos (by simpa using newline), List.takeWhile_cons,
          List.takeWhile_cons, ih]

theorem eq_append_of_splitLast? {separator : Char}
    (found : splitLast? separator text = some (front, rest)) :
    text = front ++ separator :: rest := by
  induction text generalizing front with
  | nil => cases found
  | cons character others ih =>
      unfold splitLast? at found
      split at found
      · next before behind later =>
          cases found
          exact congrArg (character :: ·) (ih later)
      · split at found
        · next same =>
            cases found
            exact congrArg (· :: _) same
        · cases found

end Text

/-! ### What a rule leaves -/

section

variable {here : Frame} {scanner next : Scanner}

/-- From a scanner that goes on the rule comes to another one. -/
def Keeps (here : Frame) (rule : Scanning Bool) : Prop :=
  ∀ scanner : Scanner, Running here scanner →
    Ensures rule scanner fun _ after => Running here after

def SimpleRule.Keeps (here : Frame) (rule : SimpleRule) : Prop :=
  ∀ scanner next : Scanner, Running here scanner → rule scanner = some next → Running here next

def CheckedRule.Keeps (here : Frame) (rule : CheckedRule) : Prop :=
  ∀ scanner : Scanner, Running here scanner →
    Gives (rule scanner) fun found => ∀ next ∈ found, Running here next

theorem SimpleRule.Keeps.run {rule : SimpleRule} (keeps : rule.Keeps here) :
    Offside.Keeps here rule.run := by
  intro scanner running matched after done
  unfold SimpleRule.run at done
  split at done
  · next found =>
      cases done
      exact keeps scanner _ running found
  · cases done
    exact running

theorem CheckedRule.Keeps.run {rule : CheckedRule} (keeps : rule.Keeps here) :
    Offside.Keeps here rule.run :=
  fun scanner running => ensures_of_gives running (keeps scanner running)

/-- The blanks up to the end of the line are dropped without a move. -/
theorem Scanner.Running.dropBlanks (running : Running here scanner) {rest : List Char}
    (blanks : scanner.unread.dropWhile isIndentation = rest)
    (ends : ∀ next ∈ rest.head?, next = '\n') : Running here { scanner with unread := rest } := by
  refine running.move rfl rfl rfl (blanks ▸ List.dropWhile_suffix _) fun stands => ?_
  rw [← List.takeWhile_append_dropWhile (p := isIndentation) (l := scanner.unread), blanks]
    at stands
  refine stands.toLineEnd ends ?_
  rw [List.count_eq_zero.mpr (newline_not_mem_takeWhile rfl)]
  rfl

end

namespace Rule

variable {here : Frame} {scanner next : Scanner}

/-! ### Keywords -/

theorem running_endOfLine? {matched rest : List Char} {kind : TokenKind} {token : Token}
    (running : Running here scanner) (unread : scanner.unread = matched ++ rest)
    (oneLine : '\n' ∉ matched) (other : ∀ name, kind ≠ .tag name)
    (found : scanner.endOfLine? matched rest kind = some (token, next)) :
    Running here next ∧ Running here (next.pushToken token) := by
  have kindFound : token.kind = kind := (endOfLine?_eq_some found).1
  have otherToken : ∀ name, token.kind ≠ .tag name := fun name => kindFound ▸ other name
  have behind := running.read unread oneLine
  have kept : Running here next := by
    unfold endOfLine? at found
    split at found
    · cases found
      exact behind
    · split at found
      · next blanks =>
          cases found
          exact behind.dropBlanks blanks (by simp)
      · next others blanks =>
          cases found
          exact behind.dropBlanks blanks (by simp)
      · cases found
  exact ⟨kept, kept.pushToken otherToken⟩

theorem keeps_keywordLine {keyword : String} {kind : TokenKind} (oneLine : '\n' ∉ keyword.toList)
    (other : ∀ name, kind ≠ .tag name) : SimpleRule.Keeps here (keywordLine keyword kind) := by
  intro scanner next running matched
  simp only [keywordLine, Option.bind_eq_bind, Option.bind_eq_some_iff] at matched
  rcases matched with ⟨rest, found, ⟨token, after⟩, ends, ⟨⟩⟩
  rw [afterKeyword?, after?_eq_some_iff] at found
  exact (running_endOfLine? running found oneLine other ends).2

theorem running_keyword {keyword : String} {stops : List Char} {kind : TokenKind}
    (running : Running here scanner) (oneLine : '\n' ∉ keyword.toList)
    (opens : opensWith keyword stops scanner.unread = true) (other : ∀ name, kind ≠ .tag name) :
    Running here (scanner.emit kind keyword.length) := by
  rcases exists_append_of_opensWith opens with ⟨rest, unread⟩
  refine running.emit other ?_
  rwa [unread, ← String.length_toList, List.take_left]

theorem keeps_path : Keeps here path := by
  intro scanner running matched after done
  unfold path at done
  split at done
  · next rest unread =>
      dsimp only at done
      split at done
      · cases done
        exact running
      · split at done
        · cases done
          exact running
        · next token behind found =>
            have parts : scanner.unread =
                ' ' :: firstLine rest ++ rest.drop (firstLine rest).length := by
              rw [List.cons_append, firstLine_append_drop, unread]
            have oneLine : '\n' ∉ ' ' :: firstLine rest := by
              simp [newline_not_mem_firstLine]
            have left := running_endOfLine? running parts oneLine (by simp) found
            split at done
            · cases done
              exact left.1
            · cases done
              exact left.2
  · cases done
    exact running

theorem keeps_repeatRule {rule : Scanning Bool} (keeps : Keeps here rule) (budget : Nat)
    (scanner : Scanner) (running : Running here scanner) :
    Ensures (repeatRule rule budget) scanner fun _ after => Running here after := by
  induction budget generalizing scanner with
  | zero => exact .pure running
  | succ budget ih =>
      refine (keeps scanner running).bind ?_
      intro matched middle further
      cases matched with
      | false => exact .pure further
      | true => exact ih middle further

theorem keeps_blankLine : SimpleRule.Keeps here blankLine := by
  intro scanner next running matched
  unfold blankLine at matched
  split at matched
  · next rest unread =>
      split at matched
      · next others blanks =>
          cases matched
          have parts : scanner.unread =
              '\n' :: rest.takeWhile isIndentation ++ '\n' :: others := by
            rw [unread, ← blanks, List.cons_append, List.takeWhile_append_dropWhile]
          refine running.move rfl rfl rfl (parts ▸ List.suffix_append _ _) fun stands => ?_
          rw [parts] at stands
          refine stands.toLineEnd (by simp) ?_
          rw [List.count_cons_self, List.count_eq_zero.mpr (newline_not_mem_takeWhile rfl)]
          rfl
      · cases matched
  · cases matched

theorem keeps_doctype : SimpleRule.Keeps here doctype := by
  intro scanner next running matched
  unfold doctype at matched
  split at matched
  · cases matched
    refine running.emit (fun _ => nofun) ?_
    have line : scanner.unread.take (firstLine scanner.unread).length = firstLine scanner.unread :=
      (List.prefix_iff_eq_take.mp (List.takeWhile_prefix _)).symm
    rw [line]
    exact newline_not_mem_firstLine
  · cases matched

theorem keeps_defaultKeyword : CheckedRule.Keeps here defaultKeyword := by
  intro scanner running
  unfold defaultKeyword
  split
  · next found =>
      refine .ok ?_
      rintro next ⟨⟩
      exact keeps_keywordLine (by decide) (by simp) _ _ running found
  · split
    · rintro found ⟨⟩
    · rintro found ⟨⟩ next ⟨⟩

theorem keeps_namedBlock {keyword : String} {afterBlock : Bool} {mode : BlockMode}
    (oneLine : '\n' ∉ keyword.toList) :
    SimpleRule.Keeps here (namedBlock keyword afterBlock mode) := by
  intro scanner next running matched
  simp only [namedBlock, Option.bind_eq_bind, Option.bind_eq_some_iff] at matched
  rcases matched with ⟨⟨head, rest⟩, headFound, named⟩
  rcases eq_append_of_blockHead? oneLine headFound with ⟨unread, oneLineHead⟩
  split at named
  · cases named
  · cases named
    generalize labelFound : beforeComment (firstLine rest) = label
    have inRest : label <+: rest :=
      labelFound ▸ (isPrefix_beforeComment _).trans (List.takeWhile_prefix _)
    have oneLineLabel : '\n' ∉ label := fun newline =>
      newline_not_mem_firstLine ((labelFound ▸ isPrefix_beforeComment _).subset newline)
    have shorter := (isPrefix_dropEndWhile isSeparator label).length_le
    have parts : scanner.unread = head ++ label ++ rest.drop label.length := by
      rw [List.append_assoc, List.prefix_iff_eq_append.mp inRest, unread]
    have behind := running.read parts (by simp [oneLineHead, oneLineLabel])
    refine behind.add [⟨_, _, _⟩] (by simp) rfl rfl rfl rfl ?_
    have columns : scanner.position.column + (head.length +
        (dropEndWhile isSeparator label).length) +
          (label.length - (dropEndWhile isSeparator label).length) =
        scanner.position.column + (head ++ label).length := by
      rw [List.length_append]
      omega
    exact congrArg (Position.mk scanner.position.line) columns

/-- The brackets around parameters close on the line. -/
theorem newline_not_mem_take_brackets {behind arguments others : List Char}
    (bracket : (firstLine behind).dropWhile (· == ' ') = '(' :: (arguments ++ ')' :: others)) :
    '\n' ∉ behind.take ((behind.takeWhile (· == ' ')).length + arguments.length + 2) := by
  have line : firstLine behind =
      (firstLine behind).takeWhile (· == ' ') ++ '(' :: (arguments ++ ')' :: others) := by
    rw [← bracket, List.takeWhile_append_dropWhile]
  rw [takeWhile_firstLine rfl] at line
  have whole : firstLine behind ++ behind.drop (firstLine behind).length = behind :=
    firstLine_append_drop
  generalize behind.takeWhile (· == ' ') = spaces at line ⊢
  have inLine : spaces ++ '(' :: (arguments ++ [')']) <+: firstLine behind :=
    ⟨others, by simp [line]⟩
  have inText : spaces ++ '(' :: (arguments ++ [')']) <+: behind :=
    inLine.trans ⟨_, whole⟩
  have length : spaces.length + arguments.length + 2 =
      (spaces ++ '(' :: (arguments ++ [')'])).length := by simp [Nat.add_assoc]
  rw [length, ← List.prefix_iff_eq_take.mp inText]
  exact fun newline => newline_not_mem_firstLine (inLine.subset newline)

theorem keeps_mixin : SimpleRule.Keeps here mixin := by
  intro scanner next running matched
  unfold mixin at matched
  cases headFound : keywordSpaces? "mixin" scanner.unread with
  | none =>
      rw [headFound] at matched
      cases matched
  | some found =>
      rcases found with ⟨head, rest⟩
      rcases eq_append_of_keywordSpaces? (by decide) headFound with ⟨unread, oneLineHead⟩
      simp -zeta only [headFound, Option.bind_eq_bind, Option.bind_some] at matched
      extract_lets name behind arguments? spaces bracketed trailing at matched
      have cut : ∀ arguments ∈ arguments?, ∃ others,
          (firstLine behind).dropWhile (· == ' ') = '(' :: (arguments ++ ')' :: others) := by
        dsimp only [arguments?]
        split
        · next line opened =>
            intro arguments found
            rcases Option.map_eq_some_iff.mp found with ⟨⟨_, others⟩, last, rfl⟩
            exact ⟨others, opened ▸ congrArg ('(' :: ·) (eq_append_of_splitLast? last)⟩
        · simp
      have oneLineBracketed : '\n' ∉ behind.take bracketed := by
        clear_value arguments?
        cases arguments? with
        | none => simp [bracketed]
        | some arguments =>
            rcases cut arguments rfl with ⟨others, bracket⟩
            exact newline_not_mem_take_brackets bracket
      have parts : scanner.unread = head ++ (name ++ behind) := by
        rw [unread, List.prefix_iff_eq_append.mp (List.takeWhile_prefix _)]
      split at matched
      · cases matched
      · cases matched
        refine running.emit (by simp) ?_
        rw [parts, Nat.add_assoc, Nat.add_assoc, List.take_length_add_append,
          List.take_length_add_append, List.take_add]
        simp only [List.mem_append, not_or]
        refine ⟨oneLineHead, newline_not_mem_takeWhile (by decide), oneLineBracketed, ?_⟩
        rw [← List.prefix_iff_eq_take.mp (List.takeWhile_prefix _)]
        exact newline_not_mem_takeWhile rfl

/-! ### Names and signs -/

theorem keeps_tag : SimpleRule.Keeps here tag := by
  intro scanner next running matched
  unfold tag at matched
  split at matched
  · next first others unread =>
      split at matched
      · next isWordFirst =>
          cases matched
          generalize nameFound :
            dropEndWhile (fun character => character == '-' || character == ':')
              (scanner.unread.takeWhile fun character =>
                isWordOrDash character || character == ':') = name
          have isPrefix : name <+: scanner.unread :=
            nameFound ▸ (isPrefix_dropEndWhile _ _).trans (List.takeWhile_prefix _)
          have oneLine : '\n' ∉ name := by
            intro newline
            refine newline_not_mem_takeWhile ?_
              ((nameFound ▸ isPrefix_dropEndWhile _ _ : name <+: _).subset newline)
            decide
          have taken := (List.prefix_iff_eq_take.mp isPrefix).symm
          have behind := running.read (List.take_append_drop name.length scanner.unread).symm
            (taken.symm ▸ oneLine)
          have noNewline : first ≠ '\n' := ne_of_isWord isWordFirst (by decide)
          refine ⟨behind.interpolated, behind.ended, behind.within, behind.oneLine,
            ⟨?_, behind.located⟩,
            behind.stands.imp_left fun missed => missed.mono (List.subset_cons_self _ _)⟩
          rintro _ ⟨⟩
          refine running.stands.imp_right fun stands => ⟨by simpa using oneLine, ?_⟩
          refine ⟨scanner.unread.drop name.length ++ here.behind, ?_⟩
          rw [String.toList_ofList, ← List.append_assoc, List.prefix_iff_eq_append.mp isPrefix]
          exact stands.column unread noNewline
      · cases matched
  · cases matched

/-- A sign, and a name behind it. -/
theorem newline_not_mem_take_name {sign : Char} {rest unread : List Char} {condition : Char → Bool}
    (found : unread = sign :: rest) (noNewline : sign ≠ '\n') (stops : condition '\n' = false) :
    '\n' ∉ unread.take (1 + (rest.takeWhile condition).length) := by
  rw [found, Nat.add_comm, List.take_succ_cons,
    ← List.prefix_iff_eq_take.mp (List.takeWhile_prefix _), List.mem_cons, not_or]
  exact ⟨noNewline.symm, newline_not_mem_takeWhile stops⟩

theorem keeps_id : CheckedRule.Keeps here id := by
  intro scanner running
  unfold id
  split
  · next rest unread =>
      dsimp only
      split
      · rintro found ⟨⟩
      · refine .ok ?_
        rintro next ⟨⟩
        exact running.emit (by simp) (newline_not_mem_take_name unread (by decide) (by decide))
  · rintro found ⟨⟩ next ⟨⟩

theorem keeps_className : CheckedRule.Keeps here className := by
  intro scanner running
  unfold className
  split
  · next rest unread =>
      dsimp only
      split
      · refine .ok ?_
        rintro next ⟨⟩
        exact running.emit (by simp) (newline_not_mem_take_name unread (by decide) (by decide))
      · split
        · rintro found ⟨⟩
        · rintro found ⟨⟩
  · rintro found ⟨⟩ next ⟨⟩

theorem keeps_slash : SimpleRule.Keeps here slash := by
  intro scanner next running matched
  unfold slash at matched
  split at matched
  · next rest unread =>
      cases matched
      exact running.emit (by simp) (by simp [unread])
  · cases matched

theorem keeps_colon : SimpleRule.Keeps here colon := by
  intro scanner next running matched
  unfold colon at matched
  split at matched
  · next rest unread =>
      dsimp only at matched
      split at matched
      · cases matched
      · cases matched
        exact running.emit (by simp) (newline_not_mem_take_name unread (by decide) rfl)
  · cases matched

end Rule

/-! ### The layout -/

section

variable {here : Frame} {scanner next : Scanner} {unit : IndentUnit} {width : Nat}

theorem newline_not_mem_take_indentWidth (unit : IndentUnit) (line : List Char) :
    '\n' ∉ line.take (indentWidth unit line) := by
  unfold indentWidth
  rw [← List.prefix_iff_eq_take.mp (List.takeWhile_prefix _)]
  refine newline_not_mem_takeWhile ?_
  cases unit <;> rfl

theorem exists_of_measure? (found : scanner.measure? = some (width, next)) :
    ∃ rest unit unitAfter, scanner.unread = '\n' :: rest ∧ width = indentWidth unit rest ∧
      next = { scanner with unit := unitAfter } := by
  unfold measure? at found
  split at found
  · next rest unread =>
      split at found
      · cases found
        exact ⟨rest, _, _, unread, rfl, rfl⟩
      · dsimp only at found
        split at found
        · cases found
          exact ⟨rest, _, _, unread, rfl, rfl⟩
        · split at found
          · cases found
            exact ⟨rest, _, _, unread, rfl, rfl⟩
          · next noSpace =>
              cases found
              exact ⟨rest, .space, _, unread, by omega, rfl⟩
  · cases found

/-- The tokens for the levels that are left are added, and the scanner is behind the indentation. -/
theorem running_pushOutdents (count : Nat)
    (running : Running here { scanner with
      position := ⟨scanner.position.line, scanner.top + 1⟩ }) :
    Running here
      ((List.replicate (count + 1) ()).foldl (fun left _ => left.pushOutdent) scanner) := by
  induction count generalizing scanner with
  | zero => exact running.push (by simp)
  | succ count ih =>
      rw [List.replicate_succ, List.foldl_cons]
      have left : Running here scanner.pushOutdent := running.push (by simp)
      exact ih left

theorem gives_align (running : Running here { scanner with
    position := ⟨scanner.position.line, 1 + width⟩ }) :
    Gives (scanner.align width) fun aligned => Running here aligned := by
  unfold align
  dsimp only
  split
  · next deeper =>
      split
      · rintro aligned ⟨⟩
      · next closed levels found =>
          rcases width_of_closeLevels deeper found with ⟨someClosed, sameWidth⟩
          refine .ok ?_
          obtain ⟨count, rfl⟩ := Nat.exists_eq_add_one_of_ne_zero (Nat.ne_of_gt someClosed)
          apply running_pushOutdents
          have column :
              top ({ scanner with levels := levels }.note (.outdented (count + 1) width)) = width :=
            sameWidth
          rw [column, Nat.add_comm width 1]
          exact running.add [] (by simp) rfl rfl rfl rfl rfl
  · split
    · refine .ok ?_
      exact running.add [⟨.indent width, _, _⟩] (by simp) rfl rfl rfl rfl rfl
    · exact .ok (running.push (by simp))

theorem Rule.gives_indentation (running : Running here scanner) :
    Gives (indentation scanner) fun found => ∀ next ∈ found, ∃ limit < scanner.unread.length,
      Running { here with limit := limit } next := by
  unfold indentation
  cases found : scanner.measure? with
  | none => rintro _ ⟨⟩ next ⟨⟩
  | some result =>
      rcases result with ⟨width, measured⟩
      rcases exists_of_measure? found with ⟨rest, unit, unitAfter, unread, rfl, rfl⟩
      dsimp -zeta only
      extract_lets next
      have parts : scanner.unread =
          '\n' :: rest.take (indentWidth unit rest) ++ rest.drop (indentWidth unit rest) := by
        rw [unread, List.cons_append, List.take_append_drop]
      have unreadNext : next.unread = rest.drop (indentWidth unit rest) := by
        show scanner.unread.drop (indentWidth unit rest + 1) = _
        rw [unread, List.drop_succ_cons]
      have behind : next.unread <:+ scanner.unread :=
        unreadNext ▸ parts ▸ List.suffix_append _ _
      have shorter : next.unread.length < scanner.unread.length := by
        rw [unreadNext, unread, List.length_drop, List.length_cons]
        omega
      have landed : Running here { next with
          position := ⟨next.position.line, 1 + indentWidth unit rest⟩ } := by
        refine running.move rfl rfl rfl behind fun stands => ?_
        rw [parts] at stands
        have moved := stands.past
        rw [Position.past_cons, Position.past_eq_right (newline_not_mem_take_indentWidth unit rest),
          List.length_take_of_le (indentWidth_le_length unit rest)] at moved
        rw [unreadNext]
        exact moved
      have closer := landed.limit (Nat.le_refl next.unread.length)
      split
      · rintro found ⟨⟩
      · rintro found ⟨⟩
      · next others blank =>
          refine .ok ?_
          rintro after ⟨⟩
          refine ⟨_, shorter, closer.move rfl rfl rfl List.suffix_rfl fun stands => ?_⟩
          have here : StandsAt _ _ ([] ++ next.unread) _ := stands
          exact here.toLineEnd (by simp [blank]) rfl
      · refine (gives_align closer).bind fun aligned kept => .ok ?_
        rintro after ⟨⟩
        exact ⟨_, shorter, kept.add [] (by simp) rfl rfl rfl rfl rfl⟩

end

end Offside
