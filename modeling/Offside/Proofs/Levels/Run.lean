import Offside.Proofs.Levels.Stack

/-!
# The offside rule along a run

Only a newline and the end of the text open or close levels. All other rules leave the stack as it
is, and if they add tokens for levels, then as many that open one as close one. So the stack is well
formed in every state that a run comes to, and each line is read by the offside rule.
-/

namespace Offside

open Computing Scanner Text

/-- As many levels are closed in nested tokens as are opened. -/
theorem Nested.countP_isIndent_eq {place : Surrounding} {kinds : List TokenKind}
    (nested : Nested place kinds) : kinds.countP TokenKind.isIndent = kinds.count .outdent := by
  induction nested with
  | nil => rfl
  | @single _ kind rest allowed _ ih =>
      have single := isSingle_of_allows allowed
      have noIndent : kind.isIndent = false := by
        cases kind <;> first | rfl | cases single
      have noOutdent : kind ≠ .outdent := by
        rintro rfl
        cases single
      simp [noIndent, noOutdent, ih]
  | @enclosed _ inside opening closing body rest _ opens closes _ _ ihBody ihRest =>
      simp only [List.cons_append, List.countP_cons, List.countP_append, List.count_cons,
        List.count_append, ihBody, ihRest]
      -- What opens a level is closed by what closes one.
      cases opening <;> cases opens
      all_goals cases closing <;> cases closes
      all_goals simp +arith [TokenKind.isIndent]

namespace Scanner

variable {before middle after : Scanner}

/-- No level is opened or closed for good. -/
structure KeepsLevels (before after : Scanner) : Prop where
  levels : after.levels = before.levels
  balanced : after.indents + before.outdents = before.indents + after.outdents

namespace KeepsLevels

theorem of_found_eq (found : after.found = before.found) (levels : after.levels = before.levels) :
    before.KeepsLevels after := by
  have kinds : after.kinds = before.kinds := by rw [Scanner.kinds, found, Scanner.kinds]
  exact ⟨levels, by rw [indents, indents, outdents, outdents, kinds]⟩

theorem refl : before.KeepsLevels before :=
  of_found_eq rfl rfl

theorem trans (first : before.KeepsLevels middle) (second : middle.KeepsLevels after) :
    before.KeepsLevels after := by
  refine ⟨second.levels.trans first.levels, ?_⟩
  have earlier := first.balanced
  have later := second.balanced
  omega

theorem of_adds {here : Surrounding} (adds : Adds here before after) :
    before.KeepsLevels after := by
  rcases adds.nested with ⟨added, kinds, nested⟩
  have balanced := nested.countP_isIndent_eq
  refine ⟨adds.levels, ?_⟩
  simp only [indents, outdents, kinds, List.countP_append, List.count_append, balanced]
  omega

theorem push {kind : TokenKind} {start : Position} (noIndent : kind.isIndent = false)
    (noOutdent : kind ≠ .outdent) : before.KeepsLevels (before.push kind start) := by
  refine ⟨rfl, ?_⟩
  simp [indents, outdents, noIndent, noOutdent]

theorem emit {kind : TokenKind} {count : Nat} (noIndent : kind.isIndent = false)
    (noOutdent : kind ≠ .outdent) : before.KeepsLevels (before.emit kind count) := by
  have moved : before.KeepsLevels ((before.drop count).right (before.unread.take count).length) :=
    .of_found_eq rfl rfl
  exact moved.trans (.push noIndent noOutdent)

/-- A text block is opened, and the text behind it is left. -/
theorem opened {rest : List Char} :
    before.KeepsLevels { before.pushHere .startTextBlock with unread := rest } := by
  have pushed : before.KeepsLevels (before.pushHere .startTextBlock) := .push rfl (by decide)
  exact pushed.trans (.of_found_eq rfl rfl)

end KeepsLevels

end Scanner

/-- From wherever a rule is tried, it keeps the levels. -/
def KeepsLevels (rule : Scanning Bool) : Prop :=
  ∀ scanner : Scanner, Ensures rule scanner fun _ after => scanner.KeepsLevels after

section

variable {scanner : Scanner} {inner : Scanning Unit}

theorem keepsLevels_of_ruled {rule : Scanning Bool}
    (ruled : ∀ scanner, Ensures rule scanner (Ruled scanner)) : KeepsLevels rule :=
  fun scanner => (ruled scanner).mono fun _ _ result => .of_adds result.1.toAdds

theorem keepsLevels_repeatRule {rule : Scanning Bool} (keeps : KeepsLevels rule) (budget : Nat) :
    Ensures (repeatRule rule budget) scanner fun _ after => scanner.KeepsLevels after := by
  induction budget generalizing scanner with
  | zero => exact .pure .refl
  | succ budget ih =>
      refine (keeps scanner).bind ?_
      intro matched middle kept
      cases matched with
      | false => exact .pure kept
      | true => exact ih.mono fun _ _ further => kept.trans further

/-! ### Text blocks -/

theorem keepsLevels_addLines (readsTag : ReadsTag inner) {width : Nat} {first : Bool}
    {block : List BlockLine} (oneLine : ∀ line ∈ block, '\n' ∉ line.text) :
    Ensures (addLines inner width first block) scanner fun _ after =>
      scanner.KeepsLevels after := by
  induction block generalizing scanner first with
  | nil => exact .pure .refl
  | cons line rest ih =>
      rw [List.forall_mem_cons] at oneLine
      refine .get_bind ?_
      extract_lets start inside
      have moved : scanner.KeepsLevels inside := by
        dsimp only [inside]
        split
        · exact .of_found_eq rfl rfl
        · exact .of_found_eq rfl rfl
      have marked : scanner.KeepsLevels
          (if first then inside else inside.push .newline start.position) := by
        split
        · exact moved
        · exact moved.trans (.push rfl (by decide))
      refine .set_bind ?_
      refine (ensures_addRun (holdsText_place scanner false) readsTag oneLine.1).bind ?_
      intro _ middle runs
      refine (ih oneLine.2).mono fun _ after further => ?_
      exact (marked.trans (.of_adds runs.toAdds)).trans further

theorem keepsLevels_textBlock (readsTag : ReadsTag inner) (budget : Nat)
    (requested : Option Nat) :
    KeepsLevels (Rule.textBlock (SimpleRule.run Rule.blankLine) inner budget requested) := by
  intro scanner
  induction budget generalizing scanner requested with
  | zero => exact .pure .refl
  | succ budget ih =>
      refine .get_bind ?_
      refine (ensures_repeatBlank _).bind ?_
      rintro _ middle ⟨skipped, _⟩
      have kept : scanner.KeepsLevels middle := .of_adds skipped.toAdds
      refine .modifyGet_bind ?_
      cases measured : middle.measure?
      case' none => have settled := kept
      case' some found =>
        have settled := kept.trans (.of_adds (extends_of_measure? measured).2.toAdds)
      -- Measured or not, the block is read in the same way.
      all_goals
        dsimp only
        split
        · exact .pure settled
        · refine .get_bind ?_
          split
          · exact .pure settled
          · split
            · exact (ih (some _) _).mono fun _ _ further => settled.trans further
            · next block rest taken =>
                refine .set_bind ?_
                refine (keepsLevels_addLines readsTag (newline_not_mem_of_takeBlock taken)).bind ?_
                intro _ after further
                refine .modify_bind (.pure ?_)
                exact (settled.trans .opened).trans (further.trans (.push rfl (by decide)))

/-! ### Rules that go on with other rules -/

theorem keepsLevels_inheritance {path : Scanning Bool} (keeps : KeepsLevels path) :
    KeepsLevels (Rule.inheritance path) := by
  intro scanner
  unfold Rule.inheritance
  extract_lets announce
  have announces (keyword : String) : Ensures (announce keyword) scanner
      fun _ after => scanner.KeepsLevels after := by
    have emitted : scanner.KeepsLevels (scanner.emit .inheritance keyword.length) :=
      .emit rfl (by decide)
    refine .modify_bind ((keeps _).bind ?_)
    intro matched after further
    cases matched with
    | true => exact .pure (emitted.trans further)
    | false => exact .throw
  refine .get_bind ?_
  split
  · exact announces _
  · split
    · exact announces _
    · split
      · exact .throw
      · exact .pure .refl

theorem keepsLevels_inclusion {filter path : Scanning Bool} (keepsFilter : KeepsLevels filter)
    (keeps : KeepsLevels path) : KeepsLevels (Rule.inclusion filter path) := by
  intro scanner
  refine .get_bind ?_
  split
  · have emitted : scanner.KeepsLevels (scanner.emit .inclusion "include".length) :=
      .emit rfl (by decide)
    refine .set_bind ((keepsLevels_repeatRule keepsFilter _).bind ?_)
    intro _ middle further
    refine (keeps middle).bind ?_
    intro matched after more
    cases matched with
    | true => exact .pure (emitted.trans (further.trans more))
    | false =>
        refine .get_bind ?_
        split
        all_goals exact .throw
  · split
    · exact .throw
    · exact .pure .refl

theorem keepsLevels_comment {block : Scanning Bool} (keeps : KeepsLevels block) :
    KeepsLevels (Rule.comment block) := by
  intro scanner
  refine .get_bind ?_
  split
  · extract_lets line
    split
    next value buffered _ =>
    refine .set_bind ((keeps _).bind ?_)
    intro _ after further
    have marked : scanner.KeepsLevels { scanner with markersAllowed := buffered } :=
      .of_found_eq rfl rfl
    exact .pure (marked.trans (.trans (.emit rfl (by simp)) further))
  · exact .pure .refl

theorem keepsLevels_dot {block : Scanning Bool} (keeps : KeepsLevels block) :
    KeepsLevels (Rule.dot block) := by
  intro scanner
  refine .get_bind ?_
  split
  · next rest unread =>
      split
      · exact .pure .refl
      · next token next found =>
          have takes := Rule.takes_endOfLine found rfl (unread ▸ .cons List.suffix_rfl)
          refine .set_bind ((keeps _).bind ?_)
          intro _ after further
          exact .pure (.trans (.of_adds takes.extends.toAdds) further)
  · exact .pure .refl

theorem keepsLevels_filter {attributes : Scanning Bool} {block : Option (Scanning Bool)}
    (keepsAttributes : KeepsLevels attributes) (keeps : ∀ rule ∈ block, KeepsLevels rule) :
    KeepsLevels (Rule.filter attributes block) := by
  intro scanner
  refine .get_bind ?_
  split
  · split
    · exact .pure .refl
    · next name length _ =>
        have emitted : scanner.KeepsLevels
            (scanner.emit (.filter (String.ofList name)) (1 + length)) :=
          .emit rfl (by simp)
        refine .set_bind ((keepsAttributes _).bind ?_)
        intro _ middle further
        cases block with
        | none => exact .pure (emitted.trans further)
        | some rule =>
            refine .modify_bind ((keeps rule rfl _).bind ?_)
            intro _ after more
            have literal : middle.KeepsLevels { middle with markersAllowed := false } :=
              .of_found_eq rfl rfl
            exact .pure ((emitted.trans further).trans (literal.trans more))
  · exact .pure .refl

/-! ### All rules -/

theorem keepsLevels_textBlockStep (readsTag : ReadsTag inner) :
    KeepsLevels (textBlockStep [] inner) :=
  fun scanner => .get_bind (keepsLevels_textBlock readsTag _ none scanner)

/-- Every rule keeps the levels, but for those of a newline and of the end of the text. -/
theorem keepsLevels_rule (readsTag : ReadsTag inner) {step : Step}
    (noIndentation : step ≠ .indentation) (noEnd : step ≠ .endOfInput) :
    KeepsLevels (step.rule [] inner) := by
  have keepsPath : KeepsLevels (pathStep []) := keepsLevels_of_ruled fun _ => Rule.ensures_path
  have keepsAttributes : KeepsLevels (attributesStep []) :=
    keepsLevels_of_ruled fun _ => ensures_attributes
  have noBlock : ∀ rule ∈ (none : Option (Scanning Bool)), KeepsLevels rule := by simp
  have keepsFilter : KeepsLevels (includeFilterStep []) :=
    keepsLevels_filter keepsAttributes noBlock
  have keepsBlock : KeepsLevels (textBlockStep [] inner) := keepsLevels_textBlockStep readsTag
  have keepsSome : ∀ rule ∈ some (textBlockStep [] inner), KeepsLevels rule := by
    rintro rule ⟨⟩
    exact keepsBlock
  have simple {rule : SimpleRule}
      (takes : ∀ scanner next, rule scanner = some next → Takes scanner next) :
      KeepsLevels (SimpleRule.run rule) :=
    keepsLevels_of_ruled fun scanner => ensures_simple (takes scanner)
  have checked {rule : CheckedRule}
      (takes : ∀ scanner next, rule scanner = .ok (some next) → Takes scanner next) :
      KeepsLevels (CheckedRule.run rule) :=
    keepsLevels_of_ruled fun scanner => ensures_checked (takes scanner)
  cases step with
  | blank =>
      exact keepsLevels_of_ruled fun _ => Rule.ensures_blankLine.mono fun _ _ result => result.1
  | endOfInput => exact absurd rfl noEnd
  | endInterpolation => exact keepsLevels_of_ruled fun _ => ensures_endInterpolation
  | yieldSlot => exact simple fun _ _ => Rule.takes_keywordLine (by decide) rfl
  | doctype => exact simple fun _ _ => Rule.takes_doctype
  | default => exact checked fun _ _ => Rule.takes_default
  | inheritance => exact keepsLevels_inheritance keepsPath
  | append => exact simple fun _ _ => Rule.takes_namedBlock (by decide)
  | prepend => exact simple fun _ _ => Rule.takes_namedBlock (by decide)
  | block => exact simple fun _ _ => Rule.takes_namedBlock (by decide)
  | mixinBlock => exact simple fun _ _ => Rule.takes_keywordLine (by decide) rfl
  | inclusion => exact keepsLevels_inclusion keepsFilter keepsPath
  | mixin => exact simple fun _ _ => Rule.takes_mixin
  | call => exact checked fun _ _ => Rule.takes_call
  | interpolation => exact checked fun _ _ => Rule.takes_interpolation
  | tag => exact simple fun _ _ => Rule.takes_tag
  | filter => exact keepsLevels_filter keepsAttributes keepsSome
  | id => exact checked fun _ _ => Rule.takes_id
  | dot => exact keepsLevels_dot keepsBlock
  | className => exact checked fun _ _ => Rule.takes_className
  | attributes => exact keepsAttributes
  | indentation => exact absurd rfl noIndentation
  | text => exact keepsLevels_of_ruled fun _ => ensures_text readsTag
  | html => exact keepsLevels_of_ruled fun _ => ensures_html readsTag
  | comment => exact keepsLevels_comment keepsBlock
  | slash => exact simple fun _ _ => Rule.takes_slash
  | colon => exact simple fun _ _ => Rule.takes_colon
  | includeFilter => exact keepsFilter
  | path => exact keepsPath
  | textBlock => exact keepsBlock

/-! ### The stack along a run -/

theorem onStack_indentation (onStack : scanner.OnStack) :
    Ensures (CheckedRule.run Rule.indentation) scanner fun _ after => after.OnStack := by
  refine ensures_of_gives onStack ?_
  unfold Rule.indentation
  split
  · rintro found ⟨⟩ next ⟨⟩
  · next width measured found =>
      extract_lets next
      have moved : scanner.KeepsLevels next :=
        .trans (.of_adds (extends_of_measure? found).2.toAdds) (.of_found_eq rfl rfl)
      have onStackNext : next.OnStack := onStack.same moved.levels moved.balanced
      split
      · rintro found ⟨⟩
      · rintro found ⟨⟩
      · refine .ok ?_
        rintro after ⟨⟩
        exact ⟨onStackNext.increasing, onStackNext.balanced⟩
      · refine (onStack_align onStackNext width).bind ?_
        intro aligned onStackAligned
        refine .ok ?_
        rintro after ⟨⟩
        exact ⟨onStackAligned.increasing, onStackAligned.balanced⟩

/-- At the end of the text all levels are closed. -/
theorem onStack_endOfInput (onStack : scanner.OnStack) :
    Ensures (CheckedRule.run Rule.endOfInput) scanner fun _ after => after.OnStack := by
  refine ensures_of_gives onStack ?_
  unfold Rule.endOfInput
  split
  · split
    · rintro found ⟨⟩
    · extract_lets closed
      refine .ok ?_
      rintro after ⟨⟩
      have leavesOne : ∀ left : Scanner, Leaves 1 left (left.pushHere .outdent) :=
        fun left => ⟨rfl, rfl, rfl, rfl, kinds_push left .outdent left.position⟩
      have leaves : Leaves scanner.levels.length scanner closed :=
        leaves_foldl leavesOne scanner.levels scanner
      have emptied : ({ closed with levels := [] } : Scanner).OnStack :=
        onStack.closed (List.append_nil _).symm leaves.kinds
      have ended : ({ closed with levels := [] } : Scanner).KeepsLevels
          { closed.pushHere .eos with levels := [], ended := true } :=
        .trans (.push rfl (by decide)) (.of_found_eq rfl rfl)
      exact emptied.same ended.levels ended.balanced
  · rintro found ⟨⟩ next ⟨⟩

theorem onStack_rule (readsTag : ReadsTag inner) (onStack : scanner.OnStack) (step : Step) :
    Ensures (step.rule [] inner) scanner fun _ after => after.OnStack := by
  by_cases indentation : step = .indentation
  · subst indentation
    exact onStack_indentation onStack
  · by_cases atEnd : step = .endOfInput
    · subst atEnd
      exact onStack_endOfInput onStack
    · refine (keepsLevels_rule readsTag indentation atEnd scanner).mono fun _ after kept => ?_
      exact onStack.same kept.levels kept.balanced

theorem onStack_firstMatch (readsTag : ReadsTag inner) (onStack : scanner.OnStack) :
    Ensures (firstMatch [] inner Step.order) scanner fun _ after => after.OnStack := by
  refine ensures_firstMatch OnStack ?_ onStack
  intro step _ later onStackLater
  refine (onStack_rule readsTag onStackLater step).mono fun matched after onStackAfter => ?_
  rwa [ite_self]

end

namespace Scanner

/-- The states that a run without plugins comes to between its steps. An interpolated tag is read
by a run of its own, which starts without levels and without tokens. -/
inductive Reachable : Scanner → Prop where
  | start (options : TokenOptions) (source : String) (events : Array Event) :
      Reachable { options.scanner source with events := events }
  | nested (scanner : Scanner) (body : List Char) : Reachable (scanner.nest body)
  | step {scanner after : Scanner} {budget : Nat} (reachable : Reachable scanner)
      (running : scanner.ended = false)
      (first : firstMatch [] (run [] budget) Step.order scanner = .ok () after) : Reachable after

variable {scanner : Scanner}

/-- Where a run comes to the end, that state is among them. -/
theorem Reachable.run (reachable : scanner.Reachable) (budget : Nat) :
    Ensures (run [] budget) scanner fun _ after => after.Reachable := by
  induction budget generalizing scanner with
  | zero => exact .pure reachable
  | succ budget ih =>
      refine .get_bind ?_
      split
      · exact .pure reachable
      · next running =>
          rw [Bool.not_eq_true] at running
          intro value after done
          cases first : firstMatch [] (Offside.run [] budget) Step.order scanner with
          | error fault middle =>
              rw [bind_of_error first] at done
              cases done
          | ok _ middle =>
              rw [bind_of_ok first] at done
              exact ih (reachable.step running first) value after done

/-- The state that some steps lead to, if none of them fails. -/
def steps? : (count : Nat) → Scanner → Option Scanner
  | 0, scanner => some scanner
  | count + 1, scanner =>
      if scanner.ended then
        none
      else
        match firstMatch [] (Offside.run [] (scanner.unread.length + 1)) Step.order scanner with
        | .ok _ next => steps? count next
        | .error .. => none

theorem Reachable.steps (reachable : scanner.Reachable) {count : Nat} {after : Scanner}
    (found : steps? count scanner = some after) : after.Reachable := by
  induction count generalizing scanner with
  | zero =>
      cases found
      exact reachable
  | succ count ih =>
      unfold steps? at found
      split at found
      · cases found
      · next running =>
          split at found
          · next first =>
              exact ih (reachable.step (Bool.not_eq_true _ ▸ running) first) found
          · cases found

theorem Reachable.onStack (reachable : scanner.Reachable) : scanner.OnStack := by
  induction reachable with
  | start options source events => exact ⟨List.pairwise_singleton _ _, rfl⟩
  | nested scanner body => exact ⟨List.pairwise_singleton _ _, rfl⟩
  | @step scanner after budget _ _ first ih =>
      exact onStack_firstMatch (readsTag_run budget) ih () after first

/-- The levels of a scanner follow the offside rule: the stack begins with zero, strictly increases,
and grows and shrinks with the tokens for levels; no entry is asked for that is not on the stack;
and a step at a line that is not blank, and whose indentation is of one kind, opens a level, closes
levels or does neither as the width of the line says. -/
structure FollowsOffside (scanner : Scanner) : Prop where
  base : scanner.stack.head? = some 0
  top : scanner.stack.getLast? = some scanner.top
  onStack : scanner.OnStack
  second : 0 < scanner.top → 2 ≤ scanner.stack.length
  reads : ∀ width, closeEntries? width scanner.stack.reverse =
    some ((closeLevels width scanner.levels).map fun (closed, rest) => (closed, rest ++ [0]))
  line : ∀ width measured, Rule.blankLine scanner = none →
    scanner.measure? = some (width, measured) →
      (∀ next ∈ (scanner.unread.drop (width + 1)).head?, isIndentation next = false) →
        ∀ budget, scanner.OffsideRule width (firstMatch [] (run [] budget) Step.order scanner)

/-- Every state of a run without plugins follows the offside rule. -/
theorem followsOffside (reachable : scanner.Reachable) : scanner.FollowsOffside where
  base := rfl
  top := getLast?_stack scanner
  onStack := reachable.onStack
  second positive := by
    rw [stack, length_stackOf]
    cases levels : scanner.levels with
    | nil => simp [Scanner.top, levels] at positive
    | cons level others => simp
  reads width := by
    rw [stack, stackOf, List.reverse_cons, List.reverse_reverse]
    exact closeEntries?_eq width scanner.levels
  line _ _ noBlank found unmixed budget :=
    offsideRule_firstMatch reachable.onStack (run [] budget) noBlank found unmixed

/-- The third line of a text is indented by less than the second, but by more than the first. -/
theorem followsOffside_between : ∃ scanner : Scanner, scanner.Reachable ∧
    scanner.FollowsOffside ∧ scanner.stack = [0, 2] ∧
      (∃ measured, scanner.measure? = some (1, measured)) ∧
        ∃ fault later, firstMatch [] (Offside.run [] 9) Step.order scanner = .error fault later ∧
          fault.cause = .inconsistentIndentation 0 2 := by
  have states : (steps? 3 (TokenOptions.scanner {} "a\n  b\n c")).map (fun state =>
      (state.stack, state.measure?.map Prod.fst, (Rule.blankLine state).isNone,
        (state.unread.drop 2).head?)) = some ([0, 2], some 1, true, some 'c') := by
    decide +kernel
  rcases Option.map_eq_some_iff.mp states with ⟨scanner, found, state⟩
  simp only [Prod.mk.injEq, Option.map_eq_some_iff, Option.isNone_iff_eq_none] at state
  rcases state with ⟨stack, ⟨⟨_, measured⟩, measures, rfl⟩, noBlank, behind⟩
  have reachable : scanner.Reachable := (Reachable.start {} _ #[]).steps found
  have follows := followsOffside reachable
  have top : scanner.top = 2 := by
    have last := follows.top
    rw [stack] at last
    exact (Option.some.inj last).symm
  have unmixed : ∀ next ∈ (scanner.unread.drop (1 + 1)).head?, isIndentation next = false := by
    rw [behind]
    rintro _ ⟨⟩
    rfl
  have rule := follows.line 1 measured noBlank measures unmixed 9
  rcases rule.between (by omega) (by simp [stack]) with
    ⟨fault, later, below, outer, inner, above, failed, cause, parts, _⟩
  have neighbours : outer = 0 ∧ inner = 2 := by
    rw [stack] at parts
    rcases below with _ | ⟨_, _ | ⟨_, _⟩⟩ <;> simp_all
  rcases neighbours with ⟨rfl, rfl⟩
  exact ⟨scanner, reachable, follows, stack, ⟨measured, measures⟩, fault, later, failed, cause⟩

end Scanner

end Offside
