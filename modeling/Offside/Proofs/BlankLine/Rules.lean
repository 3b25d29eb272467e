import Offside.Proofs.BlankLine.Blocks
import Offside.Proofs.BlankLine.Lines
import Offside.Proofs.Layout.Rules
import Offside.Proofs.Nesting.Run

/-!
# Rules in two texts

A place is flat where no text block is announced and no bracket is closed on another line. At flat
places every rule takes twins to twins, and so do all rules inside an interpolated tag, which is on
one line. A rule that declines leaves the scanner as it was, so that the next one is tried by the
same twins.
-/

namespace Offside

open Computing Scanner Text

variable {front rest rest' : List Char} {scanner other : Scanner} {inner inner' : Scanning Unit}

/-! ### Flat places -/

/-- A bracket is found, but on another line. -/
def Bracket.Outcome.crossesLine : Outcome → Bool
  | closed body _ => body.contains '\n'
  | _ => false

/-- What comes next is neither what may have a text block nor a bracket over several lines. -/
def Text.isFlat (text : List Char) : Bool :=
  !announcesBlock text &&
    !(bracketBehind? text).any fun (close, inside) => (Bracket.find close inside).crossesLine

theorem Text.staysOnLine_of_isFlat {text : List Char} (flat : isFlat text = true) :
    StaysOnLine text := by
  intro close inside opens body behind closed newline
  simp only [isFlat, opens, Option.any_some, closed, Bracket.Outcome.crossesLine, Bool.and_eq_true,
    Bool.not_eq_true', List.contains_eq_mem, decide_eq_false_iff_not] at flat
  exact flat.2 newline

theorem Text.beginsBlock_of_isFlat {text : List Char} (flat : isFlat text = true) :
    beginsBlock text = false := by
  simp only [isFlat, announcesBlock, Bool.and_eq_true, Bool.not_eq_true', Bool.or_eq_false_iff]
    at flat
  exact flat.1.1

theorem Text.beginsBlock_of_include {text behind : List Char} (flat : isFlat text = true)
    (found : afterKeyword? "include" text = some behind) : beginsBlock behind = false := by
  simp only [isFlat, announcesBlock, found, Option.any_some, Bool.and_eq_true, Bool.not_eq_true',
    Bool.or_eq_false_iff] at flat
  exact flat.1.2

/-! ### Rules that decline -/

/-- If a rule declines, the scanner is as it was. -/
def Scanner.KeptIfDeclined (before : Scanner) (matched : Bool) (after : Scanner) : Prop :=
  matched = false → after = before

theorem Scanner.kept_matched {after : Scanner} : Scanner.KeptIfDeclined scanner true after :=
  fun declined => nomatch declined

theorem SimpleRule.ensures_kept (rule : SimpleRule) :
    Ensures rule.run scanner (Scanner.KeptIfDeclined scanner) := by
  intro matched after done
  unfold SimpleRule.run at done
  split at done
  · cases done
    exact kept_matched
  · cases done
    exact fun _ => rfl

theorem CheckedRule.ensures_kept (rule : CheckedRule) :
    Ensures rule.run scanner (Scanner.KeptIfDeclined scanner) :=
  ensures_of_gives (fun _ => rfl) fun _ _ _ _ => kept_matched

theorem ensures_true {α : Type} (action : Scanning α) (start : Scanner) :
    Ensures action start fun _ _ => True :=
  fun _ _ _ => trivial

/-- Whatever is done first, a rule that matches in the end does not decline. -/
theorem ensures_kept_of_matched {α : Type} {action : Scanning α} {start : Scanner} :
    Ensures (do
      let _ ← action
      return true) start (Scanner.KeptIfDeclined scanner) :=
  (ensures_true action start).bind fun _ _ _ => .pure kept_matched

theorem Rule.ensures_kept_text : Ensures (text inner) scanner (Scanner.KeptIfDeclined scanner) := by
  refine .get_bind ?_
  extract_lets line run
  have runs : ∀ skipped value,
      Ensures (run skipped value) scanner (Scanner.KeptIfDeclined scanner) :=
    fun _ _ => .set_bind ensures_kept_of_matched
  clear_value run line
  split
  · exact runs _ _
  · exact runs _ _
  · exact runs _ _
  · exact runs _ _
  · exact .pure fun _ => rfl

theorem Rule.ensures_kept_html : Ensures (html inner) scanner (Scanner.KeptIfDeclined scanner) := by
  refine .get_bind ?_
  split
  · exact .set_bind ensures_kept_of_matched
  · exact .pure fun _ => rfl

theorem Rule.ensures_kept_inheritance (path : Scanning Bool) :
    Ensures (inheritance path) scanner (Scanner.KeptIfDeclined scanner) := by
  unfold inheritance
  extract_lets announce
  have announces : ∀ keyword,
      Ensures (announce keyword) scanner (Scanner.KeptIfDeclined scanner) := by
    intro keyword
    refine .modify_bind ((ensures_true _ _).bind fun matched _ _ => ?_)
    cases matched with
    | true => exact .pure kept_matched
    | false => exact .throw
  refine .get_bind ?_
  split
  · exact announces _
  · split
    · exact announces _
    · split
      · exact .throw
      · exact .pure fun _ => rfl

theorem Rule.ensures_kept_inclusion (filter path : Scanning Bool) :
    Ensures (inclusion filter path) scanner (Scanner.KeptIfDeclined scanner) := by
  refine .get_bind ?_
  split
  · refine .set_bind ((ensures_true _ _).bind fun _ _ _ => ?_)
    refine (ensures_true _ _).bind fun matched _ _ => ?_
    cases matched with
    | true => exact .pure kept_matched
    | false =>
        refine .get_bind ?_
        split
        all_goals exact .throw
  · split
    · exact .throw
    · exact .pure fun _ => rfl

theorem Rule.ensures_kept_filter (attributes : Scanning Bool) (block : Option (Scanning Bool)) :
    Ensures (filter attributes block) scanner (Scanner.KeptIfDeclined scanner) := by
  refine .get_bind ?_
  split
  · split
    · exact .pure fun _ => rfl
    · refine .set_bind ((ensures_true _ _).bind fun _ _ _ => ?_)
      cases block with
      | none => exact .pure kept_matched
      | some block => exact .modify_bind ensures_kept_of_matched
  · exact .pure fun _ => rfl

theorem Rule.ensures_kept_dot (block : Scanning Bool) :
    Ensures (dot block) scanner (Scanner.KeptIfDeclined scanner) := by
  refine .get_bind ?_
  split
  · split
    · exact .pure fun _ => rfl
    · exact .set_bind ensures_kept_of_matched
  · exact .pure fun _ => rfl

theorem Rule.ensures_kept_comment (block : Scanning Bool) :
    Ensures (comment block) scanner (Scanner.KeptIfDeclined scanner) := by
  refine .get_bind ?_
  split
  · extract_lets line
    split
    exact .set_bind ensures_kept_of_matched
  · exact .pure fun _ => rfl

theorem ensures_kept_rule {step : Step} (listed : step ∈ Step.order) :
    Ensures (step.rule [] inner) scanner (Scanner.KeptIfDeclined scanner) := by
  cases step with
  | blank | endInterpolation | yieldSlot | doctype | append | prepend | block | mixinBlock | mixin
    | tag | slash | colon => exact SimpleRule.ensures_kept _
  | endOfInput | default | call | interpolation | id | className | attributes | indentation =>
      exact CheckedRule.ensures_kept _
  | inheritance => exact Rule.ensures_kept_inheritance _
  | inclusion => exact Rule.ensures_kept_inclusion _ _
  | text => exact Rule.ensures_kept_text
  | html => exact Rule.ensures_kept_html
  | filter =>
      exact Rule.ensures_kept_filter (attributesStep []) (some (textBlockStep [] inner))
  | dot => exact Rule.ensures_kept_dot _
  | comment => exact Rule.ensures_kept_comment _
  | includeFilter | path | textBlock => simp [Step.order] at listed

/-! ### Rules in two texts -/

/-- What comes next is a flat place, or on the only line of both texts. -/
def Scanner.Calm (rest : List Char) (scanner : Scanner) : Prop :=
  rest = [] ∧ '\n' ∉ scanner.unread ∨ isFlat scanner.unread = true

section

variable (spaced : Spaced rest rest') (twin : Twin front rest rest' scanner other)

include spaced twin

theorem mirrored_simple {rule : SimpleRule} (mirrors : SimpleRule.Mirrors rule) :
    Scanning.Mirrored front.length rest rest' rule.run rule.run scanner other :=
  SimpleRule.mirrored (twin.twins (Nat.le_refl _)) (mirrors spaced twin)

theorem mirrored_checked {rule : CheckedRule} (mirrors : CheckedRule.Mirrors rule) :
    Scanning.Mirrored front.length rest rest' rule.run rule.run scanner other :=
  CheckedRule.mirrored (twin.twins (Nat.le_refl _)) (mirrors spaced twin)

/-- Rules that decline at flat places take twins to twins. -/
theorem mirrored_of_isFlat {rule rule' : Scanning Bool} (flat : isFlat scanner.unread = true)
    (declines : ∀ scanner : Scanner, beginsBlock scanner.unread = false →
      rule scanner = .ok false scanner)
    (declines' : ∀ scanner : Scanner, beginsBlock scanner.unread = false →
      rule' scanner = .ok false scanner) :
    Scanning.Mirrored front.length rest rest' rule rule' scanner other := by
  have noBlock := beginsBlock_of_isFlat flat
  have noBlockOther : beginsBlock other.unread = false := by
    rwa [twin.unreadOther, spaced.right.beginsBlock_append, ← spaced.left.beginsBlock_append,
      ← twin.unread]
  unfold Scanning.Mirrored
  rw [declines _ noBlock, declines' _ noBlockOther]
  exact ⟨rfl, twin.twins (Nat.le_refl _)⟩

variable (calm : Calm rest scanner)

include calm

theorem mirrored_inclusionStep :
    Scanning.Mirrored front.length rest rest'
      (Rule.inclusion (includeFilterStep []) (pathStep []))
      (Rule.inclusion (includeFilterStep []) (pathStep [])) scanner other := by
  refine Rule.mirrored_inclusion spaced (twin.twins (Nat.le_refl _)) ?_
    fun _ _ twins => Rule.mirrored_path spaced twins
  intro opens emitted
  rcases calm with ⟨rfl, -⟩ | flat
  · cases spaced
    have sameText : other.unread = scanner.unread := twin.unreadOther.trans twin.unread.symm
    rw [sameText]
    refine mirrored_repeatRule ?_ _ emitted
    rintro middle middle' ⟨left, fits, twinLeft⟩
    exact Rule.mirrored_filter twinLeft fits .none
  · cases found : afterKeyword? "include" front with
    | none =>
        rw [twin.unread, Rule.opensWith, spaced.left.afterKeyword?_append (by decide), found]
          at opens
        cases opens
    | some line =>
        have unread : ∀ behind, (front ++ behind).drop "include".length = line ++ behind := by
          intro behind
          rw [afterKeyword?, after?_eq_some_iff] at found
          rw [found]
          rfl
        have noBlock : beginsBlock (line ++ rest) = false := by
          refine beginsBlock_of_include flat ?_
          rw [twin.unread, spaced.left.afterKeyword?_append (by decide), found]
          rfl
        have noBlock' : beginsBlock (line ++ rest') = false := by
          rwa [spaced.right.beginsBlock_append, ← spaced.left.beginsBlock_append]
        rw [← unread, ← twin.unread] at noBlock
        rw [← unread, ← twin.unreadOther] at noBlock'
        have declines : ∀ scanner : Scanner, beginsBlock scanner.unread = false →
            includeFilterStep [] scanner = .ok false scanner :=
          fun _ noBlock => Rule.filter_eq_of_not_beginsBlock noBlock (attributesStep []) none
        unfold Scanning.Mirrored
        rw [repeatRule_of_declines (declines (scanner.emit _ _) noBlock),
          repeatRule_of_declines (declines (other.emit _ _) noBlock')]
        exact ⟨rfl, emitted⟩

variable (ahead : front = [] → rest = []) (readsTag : ReadsTag inner)
  (tags : ∀ size, size + 2 ≤ front.length → MirrorsTag size inner inner')

include ahead readsTag tags

/-- Every rule takes twins to twins. -/
theorem mirrored_rule {step : Step} (listed : step ∈ Step.order) :
    Scanning.Mirrored front.length rest rest' (step.rule [] inner) (step.rule [] inner') scanner
      other := by
  have twins := twin.twins (Nat.le_refl front.length)
  have onLine : rest = [] ∨ StaysOnLine scanner.unread :=
    calm.imp And.left staysOnLine_of_isFlat
  cases step with
  | blank => exact SimpleRule.mirrored twins (Rule.mirrors_blankLine spaced twin ahead)
  | endOfInput => exact mirrored_checked spaced twin Rule.mirrors_endOfInput
  | endInterpolation => exact mirrored_simple spaced twin Rule.mirrors_endInterpolation
  | yieldSlot => exact mirrored_simple spaced twin (Rule.mirrors_keywordLine (by decide) _)
  | doctype => exact mirrored_simple spaced twin Rule.mirrors_doctype
  | default => exact mirrored_checked spaced twin Rule.mirrors_defaultKeyword
  | inheritance =>
      exact Rule.mirrored_inheritance spaced twins fun _ _ twins => Rule.mirrored_path spaced twins
  | append => exact mirrored_simple spaced twin (Rule.mirrors_namedBlock (by decide) _ _)
  | prepend => exact mirrored_simple spaced twin (Rule.mirrors_namedBlock (by decide) _ _)
  | block => exact mirrored_simple spaced twin (Rule.mirrors_namedBlock (by decide) _ _)
  | mixinBlock => exact mirrored_simple spaced twin (Rule.mirrors_keywordLine (by decide) _)
  | inclusion => exact mirrored_inclusionStep spaced twin calm
  | mixin => exact mirrored_simple spaced twin Rule.mirrors_mixin
  | call => exact CheckedRule.mirrored twins (Rule.mirrors_call spaced twin onLine)
  | interpolation =>
      exact CheckedRule.mirrored twins (Rule.mirrors_interpolation spaced twin onLine)
  | tag => exact mirrored_simple spaced twin Rule.mirrors_tag
  | filter =>
      rcases calm with ⟨rfl, oneLine⟩ | flat
      · cases spaced
        rw [twin.unread, List.append_nil] at oneLine
        refine Rule.mirrored_filter twin (Nat.le_refl _) (.some ?_)
        rintro middle middle' suffix ⟨left, fits, twinLeft⟩
        exact mirrored_textBlockStep twinLeft fits fun newline => oneLine (suffix.subset newline)
      · exact mirrored_of_isFlat spaced twin flat
          (fun _ noBlock => Rule.filter_eq_of_not_beginsBlock noBlock (attributesStep [])
            (some (textBlockStep [] inner)))
          fun _ noBlock => Rule.filter_eq_of_not_beginsBlock noBlock (attributesStep [])
            (some (textBlockStep [] inner'))
  | id => exact mirrored_checked spaced twin Rule.mirrors_id
  | dot =>
      rcases calm with ⟨rfl, oneLine⟩ | flat
      · cases spaced
        exact Rule.mirrored_dot twin (Nat.le_refl _) oneLine
      · exact mirrored_of_isFlat spaced twin flat
          (fun _ noBlock => Rule.dot_eq_of_not_beginsBlock noBlock _)
          fun _ noBlock => Rule.dot_eq_of_not_beginsBlock noBlock _
  | className => exact mirrored_checked spaced twin Rule.mirrors_className
  | attributes => exact CheckedRule.mirrored twins (Rule.mirrors_attributes spaced twin onLine)
  | indentation => exact CheckedRule.mirrored twins (Rule.mirrors_indentation spaced twin ahead)
  | text => exact Rule.mirrored_text readsTag spaced twin tags
  | html => exact Rule.mirrored_html readsTag spaced twin tags
  | comment =>
      rcases calm with ⟨rfl, oneLine⟩ | flat
      · cases spaced
        exact Rule.mirrored_comment twin (Nat.le_refl _) oneLine
      · exact mirrored_of_isFlat spaced twin flat
          (fun _ noBlock => Rule.comment_eq_of_not_beginsBlock noBlock _)
          fun _ noBlock => Rule.comment_eq_of_not_beginsBlock noBlock _
  | slash => exact mirrored_simple spaced twin Rule.mirrors_slash
  | colon => exact mirrored_simple spaced twin Rule.mirrors_colon
  | includeFilter | path | textBlock => simp [Step.order] at listed

end

end Offside
