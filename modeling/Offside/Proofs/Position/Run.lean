import Offside.Proofs.Nesting.Run
import Offside.Proofs.Position.Blocks
import Offside.Proofs.Provenance.Document

/-!
# Reported positions are true

Every rule that matches reads something, so that an interpolated tag is read to its bracket and a
template to its end. All the while the tags that are found stand in the text where they are said to
stand, as long as no newline is missed.
-/

namespace Offside

open Computing Position Scanner Text

section

variable {here : Frame} {scanner after : Scanner} {inner : Scanning Unit}

/-! ### What a rule leaves behind -/

theorem Scanner.Stopped.limit (stopped : Stopped here after) {limit : Nat}
    (more : here.limit ≤ limit) : Stopped { here with limit := limit } after :=
  ⟨stopped.ended, stopped.located, fun inside =>
    ⟨(stopped.closed inside).within.trans more, (stopped.closed inside).oneLine,
      (stopped.closed inside).points⟩⟩

/-- Once something is read, less is left. -/
theorem Scanner.left_of_closer {limit : Nat} (closer : limit < here.limit)
    (result : Running { here with limit := limit } after ∨
      Stopped { here with limit := limit } after) : Left here after := by
  rcases result with running | stopped
  · have shorter := Nat.lt_of_le_of_lt running.within closer
    exact .inl ⟨running.limit (Nat.le_of_lt shorter), shorter⟩
  · exact .inr (stopped.limit (Nat.le_of_lt closer))

/-- A rule that keeps its place and reads something. -/
theorem Keeps.leaves {rule : Scanning Bool} (keeps : Keeps here rule)
    (ruled : ∀ scanner, Ensures rule scanner (Ruled scanner)) : Leaves here rule := by
  intro scanner running matched after done
  have kept := keeps scanner running matched after done
  cases matched with
  | false => exact kept
  | true =>
      refine .inl ⟨kept, ?_⟩
      rcases (ruled scanner true after done).2 rfl with ended | shorter
      · rw [kept.ended] at ended
        cases ended
      · exact Nat.lt_of_lt_of_le shorter running.within

theorem Visits.mono {limit fewer : Nat} (visits : Visits limit inner) (less : fewer ≤ limit) :
    Visits fewer inner :=
  fun here scanner inside fits => visits here scanner inside (fits.trans less)

/-- What a text block leaves, whether or not it matches. -/
def KeepsBlock (here : Frame) (rule : Scanning Bool) : Prop :=
  ∀ scanner : Scanner, Running here scanner →
    Ensures rule scanner fun _ after => Running here after ∨ Stopped here after

theorem keepsBlock_textBlockStep (visits : Visits here.limit inner) :
    KeepsBlock here (textBlockStep [] inner) :=
  fun _ running => .get_bind (ensures_textBlock_running visits running fun requested =>
    absurd rfl requested)

/-- With something read, the scanner goes on in a smaller frame. -/
theorem Scanner.Running.closer {middle : Scanner} (running : Running here scanner)
    (read : Running here middle) (shorter : middle.unread.length < scanner.unread.length) :
    middle.unread.length < here.limit ∧
      Running { here with limit := middle.unread.length } middle :=
  ⟨Nat.lt_of_lt_of_le shorter running.within, read.limit (Nat.le_refl _)⟩

namespace Rule

/-! ### Rules that go on with other rules -/

theorem leaves_inheritance {path : Scanning Bool}
    (keeps : ∀ limit, Keeps { here with limit := limit } path) :
    Leaves here (inheritance path) := by
  intro scanner running
  unfold inheritance
  extract_lets announce
  have announces : ∀ keyword stops, keyword ≠ "" → '\n' ∉ keyword.toList →
      opensWith keyword stops scanner.unread = true →
      Ensures (announce keyword) scanner fun matched after =>
        if matched then Left here after else Running here after := by
    intro keyword stops someKeyword oneLine opens
    have takes : Takes scanner (scanner.emit .inheritance keyword.length) :=
      takes_keyword someKeyword opens rfl
    rcases running.closer (running_keyword running oneLine opens (by simp)) takes.unread.length_lt
      with ⟨less, closer⟩
    refine .modify_bind ?_
    refine (keeps _ _ closer).bind ?_
    intro matched after further
    cases matched with
    | true => exact .pure (left_of_closer less (.inl further))
    | false => exact .throw
  refine .get_bind ?_
  split
  · next opens => exact announces _ _ (by decide) (by decide) opens
  · split
    · next opens => exact announces _ _ (by decide) (by decide) opens
    · split
      · exact .throw
      · exact .pure running

theorem leaves_inclusion {filter path : Scanning Bool}
    (keepsFilter : ∀ limit, Keeps { here with limit := limit } filter)
    (keeps : ∀ limit, Keeps { here with limit := limit } path) :
    Leaves here (inclusion filter path) := by
  intro scanner running
  refine .get_bind ?_
  split
  · next opens =>
      have takes : Takes scanner (scanner.emit .inclusion "include".length) :=
        takes_keyword (by decide) opens rfl
      rcases running.closer (running_keyword running (by decide) opens (by simp))
        takes.unread.length_lt with ⟨less, closer⟩
      refine .set_bind ?_
      refine (keeps_repeatRule (keepsFilter _) _ _ closer).bind ?_
      intro _ middle further
      refine (keeps _ _ further).bind ?_
      intro matched after more
      cases matched with
      | true => exact .pure (left_of_closer less (.inl more))
      | false =>
          refine .get_bind ?_
          split
          all_goals exact .throw
  · split
    · exact .throw
    · exact .pure running

theorem take_firstLine (text : List Char) : text.take (firstLine text).length = firstLine text :=
  (List.prefix_iff_eq_take.mp (List.takeWhile_prefix _)).symm

theorem leaves_comment {block : Scanning Bool}
    (keeps : ∀ limit ≤ here.limit, KeepsBlock { here with limit := limit } block) :
    Leaves here (comment block) := by
  intro scanner running
  refine .get_bind ?_
  split
  · next rest unread =>
      extract_lets line
      split
      next value buffered _ =>
      have visible : Running here { scanner with markersAllowed := buffered } :=
        running.add [] (by simp) rfl rfl rfl rfl rfl
      have oneLine : '\n' ∉ scanner.unread.take (2 + line.length) := by
        rw [unread, Nat.add_comm]
        simp only [List.take_succ_cons, line, take_firstLine, List.mem_cons, not_or]
        exact ⟨by decide, by decide, newline_not_mem_firstLine⟩
      have shorter : (scanner.unread.drop (2 + line.length)).length < scanner.unread.length :=
        (IsRest.drop (by simp [unread]) (by omega)).length_lt
      have emitted : Running here ({ scanner with markersAllowed := buffered }.emit
          (.comment (String.ofList value) buffered) (2 + line.length)) :=
        visible.emit (by simp) oneLine
      rcases running.closer emitted shorter with ⟨less, closer⟩
      refine .set_bind ?_
      refine (keeps _ (Nat.le_of_lt less) _ closer).bind ?_
      exact fun _ after further => .pure (left_of_closer less further)
  · exact .pure running

theorem leaves_dot {block : Scanning Bool}
    (keeps : ∀ limit ≤ here.limit, KeepsBlock { here with limit := limit } block) :
    Leaves here (dot block) := by
  intro scanner running
  refine .get_bind ?_
  split
  · next rest unread =>
      split
      · exact .pure running
      · next token next found =>
          have takes := takes_endOfLine found rfl (unread ▸ .cons List.suffix_rfl)
          have parts : scanner.unread = ['.'] ++ rest := unread
          have read := (running_endOfLine? running parts (by decide) (by simp) found).2
          rcases running.closer read takes.unread.length_lt with ⟨less, closer⟩
          refine .set_bind ?_
          refine (keeps _ (Nat.le_of_lt less) _ closer).bind ?_
          exact fun _ after further => .pure (left_of_closer less further)
  · exact .pure running

theorem newline_not_mem_take_filterName {rest name : List Char} {length : Nat}
    (found : filterName? rest = some (name, length)) : '\n' ∉ rest.take length := by
  unfold filterName? at found
  split at found
  · cases found
  · next first others =>
      dsimp only at found
      split at found
      · cases found
        rw [← List.prefix_iff_eq_take.mp (List.takeWhile_prefix _)]
        exact newline_not_mem_takeWhile (by decide)
      · split at found
        · next quote =>
            have noNewline : first ≠ '\n' := by
              rintro rfl
              exact absurd quote (by decide)
            split at found
            · cases found
            · cases found
            · next behind _ cut =>
                cases found
                have line := eq_append_of_splitLast? cut
                have inLine : name ++ [first] <+: firstLine others := ⟨behind, by simp [line]⟩
                have inText := inLine.trans (List.takeWhile_prefix _)
                have length : (name ++ [first]).length = name.length + 1 := by simp
                rw [List.take_succ_cons, ← length, ← List.prefix_iff_eq_take.mp inText,
                  List.mem_cons, not_or]
                exact ⟨noNewline.symm, fun newline =>
                  newline_not_mem_firstLine (inLine.subset newline)⟩
        · cases found

/-- A filter without a text block does not end an interpolated tag. -/
theorem ensures_filter_left {attributes : Scanning Bool} {block : Option (Scanning Bool)}
    (keepsAttributes : ∀ limit, Keeps { here with limit := limit } attributes)
    (keeps : ∀ rule ∈ block, ∀ limit ≤ here.limit, KeepsBlock { here with limit := limit } rule)
    (running : Running here scanner) :
    Ensures (filter attributes block) scanner fun matched after =>
      if matched then Left here after ∧ (block = none → Running here after)
      else Running here after := by
  refine .get_bind ?_
  split
  · next rest unread =>
      split
      · exact .pure running
      · next name length found =>
          have takes : Takes scanner (scanner.emit (.filter (String.ofList name)) (1 + length)) :=
            takes_emit rfl (by simp [unread]) (by omega)
          have oneLine : '\n' ∉ scanner.unread.take (1 + length) := by
            rw [unread, Nat.add_comm, List.take_succ_cons, List.mem_cons, not_or]
            exact ⟨by decide, newline_not_mem_take_filterName found⟩
          rcases running.closer (running.emit (by simp) oneLine) takes.unread.length_lt
            with ⟨less, closer⟩
          refine .set_bind ?_
          refine (keepsAttributes _ _ closer).bind ?_
          intro _ middle further
          cases block with
          | none =>
              have fits := further.within.trans (Nat.le_of_lt less)
              exact .pure ⟨left_of_closer less (.inl further), fun _ => further.limit fits⟩
          | some rule =>
              refine .modify_bind ?_
              have literal : Running _ { middle with markersAllowed := false } :=
                further.add [] (by simp) rfl rfl rfl rfl rfl
              refine (keeps rule rfl _ (Nat.le_of_lt less) _ literal).bind ?_
              exact fun _ after more => .pure ⟨left_of_closer less more, nofun⟩
  · exact .pure running

/-! ### The layout and the ends -/

theorem leaves_indentation : Leaves here (CheckedRule.run indentation) := by
  intro scanner running
  refine ensures_of_gives running ((gives_indentation running).mono ?_)
  intro found left next inFound
  rcases left next inFound with ⟨limit, shorter, kept⟩
  exact left_of_closer (Nat.lt_of_lt_of_le shorter running.within) (.inl kept)

theorem leaves_endInterpolation : Leaves here (SimpleRule.run endInterpolation) := by
  intro scanner running matched after done
  simp only [SimpleRule.run, endInterpolation] at done
  split at done
  · next found =>
      cases done
      split at found
      · next rest _ unread =>
          cases found
          refine .inr ⟨rfl, running.located, fun inside => ⟨?_, ?_, ?_⟩⟩
          · have within := running.within
            rw [unread, List.length_cons] at within
            exact Nat.le_of_succ_le within
          · intro newline
            exact running.oneLine inside (unread ▸ List.mem_cons_of_mem _ newline)
          · refine running.stands.imp_right fun stands => ?_
            rw [unread] at stands
            exact stands.column rfl (by decide)
      · cases found
  · cases done
    exact running

theorem leaves_endOfInput : Leaves here (CheckedRule.run endOfInput) := by
  intro scanner running
  refine ensures_of_gives running ?_
  unfold endOfInput
  split
  · split
    · rintro found ⟨⟩
    · next outside =>
        extract_lets closed
        refine .ok ?_
        rintro after ⟨⟩
        have closes : ∀ (levels : List Nat) (left : Scanner), Running here left →
            Running here (levels.foldl (fun closed _ => closed.pushHere .outdent) left) := by
          intro levels
          induction levels with
          | nil => exact fun _ kept => kept
          | cons level rest ih => exact fun left kept => ih _ (kept.push (by simp))
        have last : Running here (closed.pushHere .eos) :=
          (closes scanner.levels scanner running).push (by simp)
        exact .inr ⟨rfl, last.located, fun inside =>
          absurd (running.interpolated inside) outside⟩
  · rintro found ⟨⟩ next ⟨⟩

end Rule

/-! ### A whole run -/

theorem keeps_includeFilterStep : Keeps here (includeFilterStep []) := by
  intro scanner running
  have keepsAttributes : ∀ limit, Keeps { here with limit := limit } (attributesStep []) :=
    fun _ => Rule.keeps_attributes.run
  have noBlock : ∀ rule ∈ (none : Option (Scanning Bool)), ∀ limit ≤ here.limit,
      KeepsBlock { here with limit := limit } rule := by simp
  refine (Rule.ensures_filter_left keepsAttributes noBlock running).mono ?_
  intro matched after left
  cases matched with
  | true => exact left.2 rfl
  | false => exact left

theorem leaves_rule (visits : Visits here.limit inner) {step : Step} (listed : step ∈ Step.order) :
    Leaves here (step.rule [] inner) := by
  have keepsPath : ∀ limit, Keeps { here with limit := limit } (pathStep []) :=
    fun _ => Rule.keeps_path
  have keepsAttributes : ∀ limit, Keeps { here with limit := limit } (attributesStep []) :=
    fun _ => Rule.keeps_attributes.run
  have keepsBlock : ∀ limit ≤ here.limit,
      KeepsBlock { here with limit := limit } (textBlockStep [] inner) :=
    fun _ fewer => keepsBlock_textBlockStep (visits.mono fewer)
  have keepsFilter : ∀ limit, Keeps { here with limit := limit } (includeFilterStep []) :=
    fun _ => keeps_includeFilterStep
  have simple : ∀ {rule : SimpleRule}, rule.Keeps here →
      (∀ scanner next, rule scanner = some next → Takes scanner next) → Leaves here rule.run :=
    fun keeps takes => keeps.run.leaves fun scanner => ensures_simple (takes scanner)
  have checked : ∀ {rule : CheckedRule}, rule.Keeps here →
      (∀ scanner next, rule scanner = .ok (some next) → Takes scanner next) →
        Leaves here rule.run :=
    fun keeps takes => keeps.run.leaves fun scanner => ensures_checked (takes scanner)
  cases step with
  | blank =>
      exact Rule.keeps_blankLine.run.leaves fun _ =>
        Rule.ensures_blankLine.mono fun _ _ result => result.1
  | endOfInput => exact Rule.leaves_endOfInput
  | endInterpolation => exact Rule.leaves_endInterpolation
  | yieldSlot =>
      exact simple (Rule.keeps_keywordLine (by decide) (by simp)) fun _ _ =>
        Rule.takes_keywordLine (by decide) rfl
  | doctype => exact simple Rule.keeps_doctype fun _ _ => Rule.takes_doctype
  | default => exact checked Rule.keeps_defaultKeyword fun _ _ => Rule.takes_default
  | inheritance => exact Rule.leaves_inheritance keepsPath
  | append | prepend | block =>
      exact simple (Rule.keeps_namedBlock (by decide)) fun _ _ =>
        Rule.takes_namedBlock (by decide)
  | mixinBlock =>
      exact simple (Rule.keeps_keywordLine (by decide) (by simp)) fun _ _ =>
        Rule.takes_keywordLine (by decide) rfl
  | inclusion => exact Rule.leaves_inclusion keepsFilter keepsPath
  | mixin => exact simple Rule.keeps_mixin fun _ _ => Rule.takes_mixin
  | call => exact checked Rule.keeps_call fun _ _ => Rule.takes_call
  | interpolation => exact checked Rule.keeps_interpolation fun _ _ => Rule.takes_interpolation
  | tag => exact simple Rule.keeps_tag fun _ _ => Rule.takes_tag
  | filter =>
      have keepsSome : ∀ rule ∈ some (textBlockStep [] inner), ∀ limit ≤ here.limit,
          KeepsBlock { here with limit := limit } rule := by
        rintro rule ⟨⟩
        exact keepsBlock
      intro scanner running
      refine (Rule.ensures_filter_left keepsAttributes keepsSome running).mono ?_
      intro matched after left
      cases matched with
      | true => exact left.1
      | false => exact left
  | id => exact checked Rule.keeps_id fun _ _ => Rule.takes_id
  | dot => exact Rule.leaves_dot keepsBlock
  | className => exact checked Rule.keeps_className fun _ _ => Rule.takes_className
  | attributes => exact Rule.keeps_attributes.run.leaves fun _ => ensures_attributes
  | indentation => exact Rule.leaves_indentation
  | text => exact Rule.leaves_text visits
  | html => exact Rule.leaves_html visits
  | comment => exact Rule.leaves_comment keepsBlock
  | slash => exact simple Rule.keeps_slash fun _ _ => Rule.takes_slash
  | colon => exact simple Rule.keeps_colon fun _ _ => Rule.takes_colon
  | includeFilter | path | textBlock => exact absurd listed (by decide)

theorem ensures_left (visits : Visits here.limit inner) (running : Running here scanner) :
    Ensures (firstMatch [] inner Step.order) scanner fun _ after => Left here after := by
  have tried : ∀ steps ⊆ Step.order, ∀ scanner, Running here scanner →
      Ensures (firstMatch [] inner steps) scanner fun _ after => Left here after := by
    intro steps
    induction steps with
    | nil => exact fun _ _ _ => .throw
    | cons step rest ih =>
        intro listed scanner running
        rw [List.cons_subset] at listed
        refine (leaves_rule visits listed.1 scanner running).bind ?_
        intro matched middle left
        cases matched with
        | true => exact .pure left
        | false => exact ih listed.2 middle left
  exact tried _ (List.Subset.refl _) scanner running

/-- A run ends at the end of the template, or at the bracket of its interpolated tag. -/
theorem ensures_stopped {budget : Nat} (enough : here.limit + 2 ≤ budget)
    (running : Running here scanner) :
    Ensures (run [] budget) scanner fun _ after => Stopped here after := by
  induction budget generalizing here scanner with
  | zero => omega
  | succ budget ih =>
      have visits : Visits here.limit (run [] budget) :=
        fun inside scanner _ fits running => ih (fits.trans (by omega)) running
      refine .get_bind ?_
      rw [running.ended, if_neg Bool.false_ne_true]
      refine (ensures_left visits running).bind ?_
      rintro _ middle (⟨further, shorter⟩ | stopped)
      · refine (ih ?_ (further.limit (Nat.le_refl _))).mono ?_
        · dsimp only
          omega
        · exact fun _ after stopped => stopped.limit (Nat.le_of_lt shorter)
      · cases budget with
        | zero => exact .pure stopped
        | succ budget =>
            refine .get_bind ?_
            rw [stopped.ended, if_pos rfl]
            exact .pure stopped

end

/-! ### Lines and columns -/

theorem head?_lines (text : List Char) : (lines text).head? = some (firstLine text) := by
  induction text with
  | nil => rfl
  | cons character rest ih =>
      unfold lines
      split
      · next newline => simp [firstLine, newline]
      · next other =>
          have line : firstLine (character :: rest) = character :: firstLine rest :=
            List.takeWhile_cons_of_pos (by simpa using other)
          cases split : lines rest with
          | nil => exact absurd split (lines_ne_nil rest)
          | cons first others =>
              rw [split] at ih
              cases ih
              rw [line]
              rfl

theorem firstLine_append_of_oneLine {front : List Char} (oneLine : '\n' ∉ front)
    (text : List Char) : firstLine (front ++ text) = front ++ firstLine text := by
  refine List.takeWhile_append_of_pos fun character inFront => ?_
  have other : character ≠ '\n' := by
    rintro rfl
    exact oneLine inFront
  simpa using other

/-- A place in a text is on the line, and at the column, that its position says. -/
theorem exists_line_of_past (front rest before : List Char) (line : Nat) (oneLine : '\n' ∉ before) :
    ∃ left, (lines (before ++ front ++ rest))[front.count '\n']? = some (left ++ firstLine rest) ∧
      (⟨line, before.length + 1⟩ : Position).past front =
        ⟨line + front.count '\n', left.length + 1⟩ := by
  induction front generalizing before line with
  | nil =>
      refine ⟨before, ?_, rfl⟩
      rw [List.append_nil, List.count_nil, ← List.head?_eq_getElem?, head?_lines,
        firstLine_append_of_oneLine oneLine]
  | cons character front ih =>
      by_cases newline : character = '\n'
      · subst newline
        rcases ih [] (line + 1) List.not_mem_nil with ⟨left, found, place⟩
        refine ⟨left, ?_, ?_⟩
        · rw [List.append_assoc, List.cons_append, lines_append_newline_of_oneLine oneLine,
            List.count_cons_self, List.getElem?_cons_succ]
          exact found
        · rw [past_cons, List.count_cons_self, Nat.add_comm (front.count '\n') 1, ← Nat.add_assoc]
          exact place
      · rcases ih (before ++ [character]) line (by simp [oneLine, Ne.symm newline]) with
          ⟨left, found, place⟩
        refine ⟨left, ?_, ?_⟩
        · rw [List.count_cons_of_ne newline]
          simpa using found
        · rw [past_cons, List.count_cons_of_ne newline, ← place, Position.after, if_neg newline]
          simp [Position.right]

/-- A name that stands at a position is read there on its line. -/
theorem Position.PointsTo.exists_line {text name behind : List Char} {position : Position}
    (points : PointsTo text position (name ++ behind)) (oneLine : '\n' ∉ name) :
    1 ≤ position.line ∧ 1 ≤ position.column ∧
      ∃ line, (lines text)[position.line - 1]? = some line ∧
        name <+: line.drop (position.column - 1) := by
  rcases points with ⟨front, rfl, rfl⟩
  rcases exists_line_of_past front (name ++ behind) [] 1 List.not_mem_nil with ⟨left, found, place⟩
  rw [List.length_nil, Nat.zero_add] at place
  rw [place]
  refine ⟨Nat.le_add_right _ _, Nat.le_add_left _ _, left ++ firstLine (name ++ behind), ?_, ?_⟩
  · dsimp only
    rw [Nat.add_sub_cancel_left]
    exact found
  · dsimp only
    rw [Nat.add_sub_cancel, List.drop_left, firstLine_append_of_oneLine oneLine]
    exact List.prefix_append _ _

/-! ### Templates -/

/-- The tokens of a template that is read from the start are located. -/
theorem located_of_tokenize {source : String} {file : Option String} {interpolated : Bool}
    {events : Array Event} {tokens : Array Token}
    (done : outcome (tokenize source { file := file, interpolated := interpolated } events) =
      .ok tokens) : Located (asRead source) tokens.toList.reverse := by
  unfold tokenize at done
  split at done
  · next scanner read =>
      cases done
      let whole : Frame := ⟨asRead source, [], [], false, (asRead source).length⟩
      have points : PointsTo (asRead source) ⟨1, 1⟩ (asRead source ++ []) :=
        ⟨[], (List.append_nil _).symm, rfl⟩
      have running : Running whole
          { (TokenOptions.scanner { file := file, interpolated := interpolated } source) with
            events := events } :=
        ⟨by rintro ⟨⟩, rfl, Nat.le_refl _, by rintro ⟨⟩, trivial, .inr points.standsAt⟩
      have stopped := ensures_stopped (Nat.le_refl _) running () scanner read
      have located : Located (asRead source) (scanner.found ++ []) := stopped.located
      simpa [Scanner.tokens] using located
  · cases done

/-- The name of a tag stands on the line and at the column that the tag reports, inside and outside
of interpolated tags. The one exception is behind an attribute whose value holds a newline, when the
template has a backslash in front of one. -/
theorem tag_at_span {source : String} {file : Option String} {interpolated : Bool}
    {events : Array Event} {tokens : Array Token} {front back : List Token} {token : Token}
    {name : String}
    (done : outcome (tokenize source { file := file, interpolated := interpolated } events) =
      .ok tokens)
    (split : tokens.toList = front ++ token :: back) (isTag : token.kind = .tag name)
    (counted : ¬['\\', '\n'] <:+: asRead source ∨
      ∀ earlier ∈ front, ∀ key value,
        earlier.kind = .attributeEntry key (.text value) → '\n' ∉ value.toList) :
    1 ≤ token.span.line ∧ 1 ≤ token.span.column ∧
      ∃ line, (lines (asRead source))[token.span.line - 1]? = some line ∧
        name.toList <+: line.drop (token.span.column - 1) := by
  have located := located_of_tokenize done
  rw [split, List.reverse_append, List.reverse_cons, List.append_assoc, List.singleton_append]
    at located
  rcases located.of_append.1 name isTag with missed | ⟨oneLine, behind, points⟩
  · rcases missed with ⟨escaped, earlier, inFront, key, value, entry, newline⟩
    rcases counted with noEscape | noNewline
    · exact absurd escaped noEscape
    · exact absurd newline (noNewline earlier (List.mem_reverse.mp inFront) key value entry)
  · exact points.exists_line oneLine

/-- An interpolated tag behind an attribute list that goes over two lines. -/
theorem tag_at_span_interpolated :
    ∃ tokens token, outcome (tokenize "a(b=\"c\nd\")\n  | e #[f]" {} #[]) = .ok tokens ∧
      tokens.toList[7]? = some token ∧ token.kind = .tag "f" ∧ token.span = ⟨none, 3, 9⟩ ∧
      ∃ line, (lines (asRead "a(b=\"c\nd\")\n  | e #[f]"))[2]? = some line ∧
        "f".toList <+: line.drop 8 := by
  have found : (outcome (tokenize "a(b=\"c\nd\")\n  | e #[f]" {} #[])).toOption.bind
      (·.toList[7]?) = some ⟨.tag "f", ⟨none, 3, 9⟩, ⟨3, 10⟩⟩ := by
    decide +kernel
  cases done : outcome (tokenize "a(b=\"c\nd\")\n  | e #[f]" {} #[]) with
  | error fault => simp [done, Except.toOption] at found
  | ok tokens =>
      rw [done] at found
      obtain ⟨inside, isTag⟩ := List.getElem?_eq_some_iff.mp found
      have split : tokens.toList =
          tokens.toList.take 7 ++ ⟨.tag "f", ⟨none, 3, 9⟩, ⟨3, 10⟩⟩ :: tokens.toList.drop 8 := by
        rw [← isTag, ← List.drop_eq_getElem_cons inside, List.take_append_drop]
      have noEscape : ¬['\\', '\n'] <:+: asRead "a(b=\"c\nd\")\n  | e #[f]" := by decide +kernel
      exact ⟨tokens, _, rfl, found, rfl, rfl, (tag_at_span done split rfl (.inl noEscape)).2.2⟩

end Offside
