import Offside.Proofs.Position.Words

/-!
# Rules for what stands in brackets

The texts of calls and variables are counted character by character, and so are the entries of an
attribute list, but for the escapes in a quoted value: each of them counts two columns, even the one
that stands for a newline.
-/

namespace Offside

open Computing Position Scanner Text

/-! ### Attribute lists -/

namespace AttributeCursor

/-- The later cursor is behind a part of the text and is at its end, unless the part has an escaped
newline, and then something is known of the value that was read. -/
def Passes (known : Prop) (before after : AttributeCursor) : Prop :=
  ∃ front, before.rest = front ++ after.rest ∧
    (after.position = before.position.past front ∨ ['\\', '\n'] <:+: front ∧ known)

variable {known knownMore : Prop} {before middle after : AttributeCursor} {rest : List Char}
  {position : Position}

theorem Passes.refl : Passes known before before :=
  ⟨[], rfl, .inl rfl⟩

theorem Passes.mono (passes : Passes known before after) (more : known → knownMore) :
    Passes knownMore before after := by
  rcases passes with ⟨front, parts, place⟩
  exact ⟨front, parts, place.imp_right fun missed => ⟨missed.1, more missed.2⟩⟩

theorem Passes.trans (first : Passes known before middle) (second : Passes known middle after) :
    Passes known before after := by
  rcases first with ⟨front, parts, place⟩
  rcases second with ⟨frontNext, partsNext, placeNext⟩
  refine ⟨front ++ frontNext, ?_, ?_⟩
  · rw [parts, partsNext, List.append_assoc]
  · rcases place with exact | ⟨escaped, missed⟩
    · rcases placeNext with exactNext | ⟨escapedNext, missed⟩
      · exact .inl (by rw [exactNext, exact, past_append])
      · exact .inr ⟨escapedNext.trans (List.suffix_append _ _).isInfix, missed⟩
    · exact .inr ⟨escaped.trans (List.prefix_append _ _).isInfix, missed⟩

theorem Passes.length_le (passes : Passes known before after) :
    after.rest.length ≤ before.rest.length := by
  rcases passes with ⟨front, parts, _⟩
  rw [parts, List.length_append]
  exact Nat.le_add_left _ _

/-- One character is read that is no newline. -/
theorem passes_right {character : Char} (unread : before.rest = character :: rest)
    (noNewline : character ≠ '\n') : Passes known before ⟨rest, before.position.right 1⟩ :=
  ⟨[character], unread, .inl (if_neg noNewline).symm⟩

theorem passes_while (condition : Char → Bool) :
    Passes known ⟨rest, position⟩
      ⟨rest.dropWhile condition, position.past (rest.takeWhile condition)⟩ :=
  ⟨_, List.takeWhile_append_dropWhile.symm, .inl rfl⟩

theorem passes_skip : Passes known before before.skip :=
  passes_while isSeparator

theorem passes_readQuoted (quote : Char) (text : List Char) (position : Position)
    (noNewline : quote ≠ '\n') :
    Passes ('\n' ∈ (readQuoted quote text position).1) ⟨text, position⟩
      (readQuoted quote text position).2 := by
  fun_induction readQuoted quote text position with
  | case1 => exact .refl
  | case2 escaped rest position value cursor read ih =>
      rw [read] at ih
      rcases ih with ⟨front, parts, place⟩
      refine ⟨'\\' :: escaped :: front, congrArg (fun text => '\\' :: escaped :: text) parts, ?_⟩
      by_cases newline : escaped = '\n'
      · subst newline
        exact .inr ⟨(List.prefix_append ['\\', '\n'] front).isInfix, List.mem_cons_self⟩
      · refine place.imp (fun exact => ?_) fun missed => ?_
        · rw [exact, past_cons, past_cons]
          exact congrArg (Position.past · front) (if_neg newline).symm
        · exact ⟨missed.1.trans (List.suffix_append ['\\', escaped] front).isInfix,
            List.mem_cons_of_mem _ missed.2⟩
  | case3 => exact passes_right rfl noNewline
  | case4 character rest position _ _ value cursor read ih =>
      rw [read] at ih
      have behind : Passes ('\n' ∈ character :: value) ⟨character :: rest, position⟩
          ⟨rest, position.after character⟩ :=
        ⟨[character], rfl, .inl rfl⟩
      exact behind.trans (ih.mono (List.mem_cons_of_mem _))

theorem ne_newline_of_isQuoteMark {character : Char} (quote : isQuoteMark character = true) :
    character ≠ '\n' := by
  rintro rfl
  cases quote

theorem passes_readName : Passes known before (readName before).2.2 := by
  unfold readName
  split
  · exact .refl
  · next first rest unread =>
      split
      · next quote =>
          have opened : Passes known before ⟨rest, before.position.right 1⟩ :=
            passes_right unread (ne_newline_of_isQuoteMark quote)
          have named := opened.trans (passes_while (· ≠ first))
          dsimp only
          split
          · next behind => rwa [behind] at named
          · next closing others behind =>
              have same : closing = first := by
                have stops := List.head?_dropWhile_not (· ≠ first) rest
                rw [behind] at stops
                simpa using stops
              exact named.trans (passes_right behind (same ▸ ne_newline_of_isQuoteMark quote))
      · exact passes_while _

/-- A name takes at least one character. -/
theorem length_readName_lt (someName : (readName before).2.1 ≠ []) :
    (readName before).2.2.rest.length < before.rest.length := by
  have parts : ∀ (condition : Char → Bool) (text : List Char),
      (text.takeWhile condition).length + (text.dropWhile condition).length = text.length := by
    intro condition text
    rw [← List.length_append, List.takeWhile_append_dropWhile]
  revert someName
  unfold readName
  split
  · exact fun someName => absurd rfl someName
  · next first rest unread =>
      rw [unread]
      split
      · intro _
        dsimp only
        have behindName := parts (· ≠ first) rest
        split
        · exact Nat.succ_pos _
        · next others behind =>
            rw [behind, List.length_cons] at behindName
            show others.length < rest.length + 1
            omega
      · intro someName
        have name := List.length_pos_iff.mpr someName
        have both := parts (fun character => !(isSeparator character || character == '='))
          (first :: rest)
        dsimp only at name ⊢
        omega

theorem passes_readValue :
    Passes ('\n' ∈ (readValue before).2.1) before (readValue before).2.2 := by
  unfold readValue
  split
  · exact .refl
  · next first rest unread =>
      split
      · next quote =>
          have noNewline := ne_newline_of_isQuoteMark quote
          exact (passes_right unread noNewline).trans (passes_readQuoted first rest _ noNewline)
      · exact passes_while _

end AttributeCursor

open AttributeCursor

section

variable {here : Frame} {scanner : Scanner} {text tail : List Char}

/-- The value of an entry holds a newline. -/
def AttributeValue.HasNewline (value : AttributeValue) : Prop :=
  ∃ held, value = .text held ∧ '\n' ∈ held.toList

/-- The scanner moves on in the text of the list. -/
theorem Scanner.Running.pass {cursor : AttributeCursor}
    (running : Running here { scanner with unread := text ++ tail })
    (passes : Passes False ⟨text, scanner.position⟩ cursor) :
    Running here { scanner with position := cursor.position, unread := cursor.rest ++ tail } := by
  rcases passes with ⟨front, parts, exact | ⟨_, ⟨⟩⟩⟩
  dsimp only at parts exact
  subst parts
  refine running.move rfl rfl rfl ?_ fun stands => ?_
  · rw [List.append_assoc]
    exact List.suffix_append front _
  · dsimp only at stands ⊢
    rw [List.append_assoc] at stands
    rw [exact]
    exact stands.past

/-- An entry is added, and the scanner moves behind it in the text of the list. -/
theorem Scanner.Running.enter {cursor : AttributeCursor} {name : String} {value : AttributeValue}
    {start stop : Position} (running : Running here { scanner with unread := text ++ tail })
    (passes : Passes value.HasNewline ⟨text, scanner.position⟩ cursor) :
    Running here { ({ scanner with position := stop }.push (.attributeEntry name value) start) with
      position := cursor.position, unread := cursor.rest ++ tail } := by
  rcases passes with ⟨front, parts, place⟩
  dsimp only at parts place
  subst parts
  have located : Located here.text (⟨.attributeEntry name value, .start scanner.file start, stop⟩ ::
      scanner.allFound here) :=
    ⟨by rintro _ ⟨⟩, running.located⟩
  have more := List.subset_cons_self
    (⟨.attributeEntry name value, .start scanner.file start, stop⟩ : Token)
    (scanner.allFound here)
  have behind : cursor.rest ++ tail <:+ front ++ cursor.rest ++ tail :=
    ⟨front, (List.append_assoc ..).symm⟩
  refine ⟨running.interpolated, running.ended, Nat.le_trans behind.length_le running.within,
    fun inside newline => running.oneLine inside (behind.subset newline), located, ?_⟩
  rcases running.stands with missed | stands
  · exact .inl (missed.mono more)
  · rcases place with exact | ⟨escaped, held, rfl, newline⟩
    · refine .inr ?_
      dsimp only at stands ⊢
      rw [List.append_assoc] at stands
      rw [exact]
      exact stands.past
    · refine .inl ⟨?_, _, List.mem_cons_self, name, held, rfl, newline⟩
      have someFront : front ≠ [] := by
        rintro rfl
        exact absurd (List.eq_nil_of_infix_nil escaped) (by simp)
      rcases stands.line (by simp [someFront]) with ⟨before, whole, _⟩
      dsimp only at whole
      rw [whole, List.append_assoc, List.append_assoc]
      exact escaped.trans ((List.prefix_append _ _).isInfix.trans
        (List.suffix_append before _).isInfix)

/-- Behind the value of an entry its token is added, and the separators are passed over. -/
theorem Scanner.Running.gives_enter {cursor : AttributeCursor} {name : String}
    {value : AttributeValue} {start : Position}
    (running : Running here { scanner with unread := text ++ tail })
    (passes : Passes value.HasNewline ⟨text, scanner.position⟩ cursor)
    (shorter : cursor.rest.length < text.length) :
    Gives (pure ({ ({ scanner with position := cursor.position }).push
        (.attributeEntry name value) start with position := cursor.skip.position },
          cursor.skip.rest) : Except (Diagnostic TokenFault) (Scanner × List Char)) fun found =>
      Running here { found.1 with unread := found.2 ++ tail } ∧ found.2.length < text.length := by
  have further : Passes value.HasNewline cursor cursor.skip := passes_skip
  exact .ok ⟨running.enter (passes.trans further),
    Nat.lt_of_le_of_lt further.length_le shorter⟩

/-- The value of an entry, behind the equals sign. -/
theorem AttributeCursor.Passes.value {start cursor : AttributeCursor} {rest : List Char}
    (passes : Passes False start cursor) (equals : cursor.rest = '=' :: rest) :
    let read := readValue (skip ⟨rest, cursor.position.right 1⟩)
    Passes (AttributeValue.HasNewline (.text (String.ofList read.2.1))) start read.2.2 ∧
      read.2.2.rest.length ≤ cursor.rest.length := by
  intro read
  have opened : Passes False cursor (skip ⟨rest, cursor.position.right 1⟩) :=
    (passes_right equals (by decide)).trans passes_skip
  have valued := @passes_readValue (skip ⟨rest, cursor.position.right 1⟩)
  refine ⟨((passes.trans opened).mono False.elim).trans (valued.mono fun newline => ?_),
    valued.length_le.trans opened.length_le⟩
  exact ⟨_, rfl, by rwa [String.toList_ofList]⟩

theorem gives_attributeEntry (running : Running here { scanner with unread := text ++ tail })
    (someText : text ≠ []) :
    Gives (attributeEntry scanner text) fun found =>
      Running here { found.1 with unread := found.2 ++ tail } ∧
        found.2.length < text.length := by
  unfold attributeEntry
  extract_lets entry
  have skipped : Passes False ⟨text, scanner.position⟩ entry := passes_skip
  split
  · next atEnd =>
      refine .ok ⟨?_, List.length_pos_iff.mpr someText⟩
      have moved := running.pass skipped
      rwa [List.isEmpty_iff.mp atEnd] at moved
  split
  next nameQuote name behind read =>
  extract_lets invalid behindName behindCheck addEntry
  have named : Passes False ⟨text, scanner.position⟩ behind := by
    have passes : Passes False entry (readName entry).2.2 := passes_readName
    rw [read] at passes
    exact skipped.trans passes
  have added : name ≠ [] → Gives (behindCheck ()) fun found =>
      Running here { found.1 with unread := found.2 ++ tail } ∧
        found.2.length < text.length := by
    intro someName
    have shorter : behind.rest.length < text.length := by
      have taken := @length_readName_lt entry
      rw [read] at taken
      exact Nat.lt_of_lt_of_le (taken someName) skipped.length_le
    have toEquals : Passes False behind behindName := passes_skip
    have shorterName := Nat.lt_of_le_of_lt toEquals.length_le shorter
    dsimp only [behindCheck]
    split
    case' h_1 rest equals =>
      have valued := (named.trans toEquals).value equals
      have passes := valued.1
      have fewer := Nat.lt_of_le_of_lt valued.2 shorterName
    case' h_2 =>
      have passes : Passes AttributeValue.present.HasNewline ⟨text, scanner.position⟩ behindName :=
        (named.trans toEquals).mono False.elim
      have fewer := shorterName
    all_goals
      split
      · split
        · split
          · exact .throw_bind
          · exact running.gives_enter passes fewer
        · exact running.gives_enter passes fewer
      · exact running.gives_enter passes fewer
  split
  · exact .throw_bind
  · next someName =>
      dsimp only [addEntry]
      split
      · exact .throw_bind
      · exact added (mt List.isEmpty_iff.mpr someName)

theorem gives_attributeEntries (budget : Nat) (enough : text.length < budget)
    (running : Running here { scanner with unread := text ++ tail }) :
    Gives (attributeEntries scanner budget text) fun filled =>
      Running here { filled with unread := tail } := by
  induction budget generalizing scanner text with
  | zero => cases enough
  | succ budget ih =>
      cases text with
      | nil => exact .ok running
      | cons first rest =>
          refine (gives_attributeEntry running (List.cons_ne_nil _ _)).bind ?_
          rintro ⟨next, others⟩ ⟨kept, shorter⟩
          exact ih (Nat.lt_of_lt_of_le shorter (Nat.le_of_lt_succ enough)) kept

end

/-! ### Calls and variables -/

theorem gives_cut (scanner : Scanner) (opening : List Char) (close : Char) (text : List Char) :
    Gives (scanner.bracketed opening close text) fun cut => text = cut.1 ++ close :: cut.2 := by
  rintro ⟨body, rest⟩ closed
  unfold Scanner.bracketed at closed
  split at closed
  · next found =>
      cases closed
      exact Bracket.eq_append_of_find_eq_closed found
  · cases closed
  · cases closed

namespace Rule

variable {here : Frame}

/-- What stands in front of a bracketed text is read, and then the text up to its bracket. -/
theorem running_bracketed {scanner : Scanner} (running : Running here scanner) (count : Nat)
    (front : List Char) {body rest : List Char} {close : Char}
    (unread : scanner.unread = front ++ (body ++ close :: rest)) (oneLine : '\n' ∉ front)
    (length : front.length = count) (noNewline : close ≠ '\n') :
    Running here { ((scanner.right count).past body).right 1 with unread := rest } := by
  have opened := running.readCount front unread oneLine length
  have filled := opened.readPast rfl
  exact filled.readCount [close] rfl (by simpa using noNewline.symm) rfl

theorem keeps_interpolation : CheckedRule.Keeps here interpolation := by
  intro scanner running
  unfold interpolation
  split
  · next inside unread =>
      refine (gives_cut scanner _ _ _).bind ?_
      rintro ⟨body, rest⟩ rfl
      refine .ok ?_
      rintro next ⟨⟩
      have behind : Running here { ((scanner.right 2).past body).right 1 with unread := rest } :=
        running_bracketed running 2 ['#', '\x7b'] unread (by decide) rfl (by decide)
      exact behind.push (by simp)
  · rintro found ⟨⟩ next ⟨⟩

theorem keeps_attributes : CheckedRule.Keeps here attributes := by
  intro scanner running
  unfold attributes
  split
  · next inside unread =>
      refine (gives_cut scanner _ _ _).bind ?_
      rintro ⟨body, rest⟩ rfl
      extract_lets opened
      have inBrackets : Running here { scanner.right 1 with unread := body ++ ')' :: rest } :=
        running.readCount ['('] unread (by decide) rfl
      have begun : Running here
          { { opened with unread := rest } with unread := body ++ ')' :: rest } :=
        inBrackets.push (by simp)
      have entries := gives_attributeEntries (body.length + 1) (Nat.lt_succ_self _) begun
      have inserts := inserts_attributeEntries { opened with unread := rest } (body.length + 1) body
      have both : Gives (attributeEntries { opened with unread := rest } (body.length + 1) body)
          fun filled => Running here { filled with unread := ')' :: rest } ∧
            Inserts .attributes { opened with unread := rest } filled :=
        fun filled done => ⟨entries filled done, inserts filled done⟩
      refine both.bind ?_
      rintro filled ⟨kept, same⟩
      refine .ok ?_
      rintro next ⟨⟩
      have closed : Running here { filled.right 1 with unread := rest } :=
        kept.readCount [')'] rfl (by decide) rfl
      have unreadFilled : filled.unread = rest := same.unread
      exact closed.add [⟨.endAttributes, _, _⟩] (by simp) rfl rfl rfl unreadFilled rfl
  · rintro found ⟨⟩ next ⟨⟩

theorem keeps_call : CheckedRule.Keeps here call := by
  intro scanner running
  unfold call
  split
  · next inside unread =>
      extract_lets blanks behind name rest moved named plain spaces
      have parts : scanner.unread = '+' :: (blanks ++ name) ++ rest := by
        rw [unread, List.cons_append, List.append_assoc,
          List.prefix_iff_eq_append.mp (List.takeWhile_prefix _), List.takeWhile_append_dropWhile]
      have oneLine : '\n' ∉ '+' :: (blanks ++ name) := by
        simp only [List.mem_cons, List.mem_append, not_or]
        exact ⟨by decide, newline_not_mem_takeWhile rfl, newline_not_mem_takeWhile (by decide)⟩
      have read : Running here named :=
        running.readCount _ parts oneLine (by
          simp only [List.length_cons, List.length_append]
          omega)
      have called : Gives (.ok (some plain) : Except (Diagnostic TokenFault) (Option Scanner))
          fun found => ∀ next ∈ found, Running here next := by
        refine .ok ?_
        rintro next ⟨⟩
        exact read.push (by simp)
      split
      · rintro found ⟨⟩ next ⟨⟩
      split
      · next arguments bracket =>
          refine (gives_cut named _ _ _).bind ?_
          rintro ⟨body, others⟩ rfl
          dsimp only
          split
          · exact called
          · have unreadNamed : named.unread = spaces ++ ['('] ++ (body ++ ')' :: others) := by
              rw [List.append_assoc, List.singleton_append, ← bracket]
              exact List.takeWhile_append_dropWhile.symm
            have oneLineSpaces : '\n' ∉ spaces ++ ['('] := by
              rw [List.mem_append, not_or]
              exact ⟨newline_not_mem_takeWhile rfl, by decide⟩
            have behind := running_bracketed read (spaces.length + 1) _ unreadNamed
              oneLineSpaces (by simp) (by decide)
            refine .ok ?_
            rintro next ⟨⟩
            exact behind.push (by simp)
      · exact called
  · rintro found ⟨⟩ next ⟨⟩

end Rule

end Offside
