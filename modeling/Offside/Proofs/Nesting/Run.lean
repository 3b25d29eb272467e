import Offside.Proofs.Nesting.Lines

/-!
# The tokens of a template are nested

Inside an interpolated tag no rule for the layout applies, so that a whole run adds nested tokens.
Among the lines of a template these rules open and close the levels that the scanner keeps, and the
end of the text closes those that are left.
-/

namespace Offside

open Computing Scanner Text

variable {scanner : Scanner} {inner : Scanning Unit}

theorem ensures_endInterpolation :
    Ensures (SimpleRule.run Rule.endInterpolation) scanner (Ruled scanner) := by
  intro matched after done
  simp only [SimpleRule.run, Rule.endInterpolation] at done
  split at done
  · next found =>
      cases done
      split at found
      · next rest inside unread =>
          cases found
          refine ⟨⟨.of_found_eq rfl rfl rfl, unread ▸ List.suffix_cons ']' rest, ?_⟩,
            fun _ => .inl rfl⟩
          intro outside
          rw [outside] at inside
          cases inside
      · cases found
  · cases done
    exact .declined

/-- Every rule that does not open or close levels keeps the tokens nested. -/
theorem ensures_rule (readsTag : ReadsTag inner) (fits : scanner.Fits) {step : Step}
    (listed : step ∈ Step.order) (noIndentation : step ≠ .indentation)
    (noEnd : step ≠ .endOfInput) :
    Ensures (step.rule [] inner) scanner (Ruled scanner) := by
  have keepsPath : KeepsNesting (pathStep []) :=
    keepsNesting_of_ruled fun _ _ => Rule.ensures_path
  have keepsAttributes : KeepsNesting (attributesStep []) :=
    keepsNesting_of_ruled fun _ _ => ensures_attributes
  have noBlock : ∀ rule ∈ (none : Option (Scanning Bool)), KeepsNesting rule := by simp
  have keepsFilter : KeepsNesting (includeFilterStep []) :=
    keepsNesting_of_ruled fun _ fits => ensures_filter keepsAttributes noBlock fits
  have keepsBlock : KeepsNesting (textBlockStep [] inner) := keepsNesting_textBlock readsTag
  have keepsSome : ∀ rule ∈ some (textBlockStep [] inner), KeepsNesting rule := by
    rintro rule ⟨⟩
    exact keepsBlock
  cases step with
  | blank => exact Rule.ensures_blankLine.mono fun _ _ result => result.1
  | endOfInput => exact absurd rfl noEnd
  | endInterpolation => exact ensures_endInterpolation
  | yieldSlot => exact ensures_simple fun _ => Rule.takes_keywordLine (by decide) rfl
  | doctype => exact ensures_simple fun _ => Rule.takes_doctype
  | default => exact ensures_checked fun _ => Rule.takes_default
  | inheritance => exact ensures_inheritance keepsPath fits
  | append => exact ensures_simple fun _ => Rule.takes_namedBlock (by decide)
  | prepend => exact ensures_simple fun _ => Rule.takes_namedBlock (by decide)
  | block => exact ensures_simple fun _ => Rule.takes_namedBlock (by decide)
  | mixinBlock => exact ensures_simple fun _ => Rule.takes_keywordLine (by decide) rfl
  | inclusion => exact ensures_inclusion keepsFilter keepsPath fits
  | mixin => exact ensures_simple fun _ => Rule.takes_mixin
  | call => exact ensures_checked fun _ => Rule.takes_call
  | interpolation => exact ensures_checked fun _ => Rule.takes_interpolation
  | tag => exact ensures_simple fun _ => Rule.takes_tag
  | filter => exact ensures_filter keepsAttributes keepsSome fits
  | id => exact ensures_checked fun _ => Rule.takes_id
  | dot => exact ensures_dot keepsBlock fits
  | className => exact ensures_checked fun _ => Rule.takes_className
  | attributes => exact ensures_attributes
  | indentation => exact absurd rfl noIndentation
  | text => exact ensures_text readsTag
  | html => exact ensures_html readsTag
  | comment => exact ensures_comment keepsBlock fits
  | slash => exact ensures_simple fun _ => Rule.takes_slash
  | colon => exact ensures_simple fun _ => Rule.takes_colon
  | includeFilter | path | textBlock => simp [Step.order] at listed

theorem ensures_firstMatch (goes : Scanner → Prop) {found : Scanner → Prop} {steps : List Step}
    (each : ∀ step ∈ steps, ∀ scanner, goes scanner →
      Ensures (step.rule [] inner) scanner fun matched after =>
        if matched then found after else goes after)
    (start : goes scanner) :
    Ensures (firstMatch [] inner steps) scanner fun _ after => found after := by
  induction steps generalizing scanner with
  | nil => exact .get_bind .throw
  | cons step rest ih =>
      rw [List.forall_mem_cons] at each
      refine (each.1 scanner start).bind ?_
      intro matched middle result
      cases matched with
      | true => exact .pure result
      | false => exact ih each.2 result

/-! ### Inside an interpolated tag -/

theorem declines_layout (inside : scanner.interpolated = true) (fits : scanner.Fits) {step : Step}
    (layout : step = .indentation ∨ step = .endOfInput) :
    Ensures (step.rule [] inner) scanner (Ruled scanner) := by
  have noNewline : scanner.measure? = none := by
    by_contra measured
    rcases Option.ne_none_iff_exists'.mp measured with ⟨⟨width, later⟩, found⟩
    rcases extends_of_measure? found with ⟨atLine, extended⟩
    exact fits inside (extended.unread.subset (atLine.subset (List.mem_singleton_self _)))
  rcases layout with rfl | rfl
  · apply ensures_checked
    intro next found
    simp [Rule.indentation, noNewline] at found
  · apply ensures_checked
    intro next found
    simp only [Rule.endOfInput, inside] at found
    split at found <;> cases found

/-- A run inside an interpolated tag adds nested tokens. -/
theorem readsTag_run (budget : Nat) : ReadsTag (run [] budget) := by
  induction budget with
  | zero => exact fun _ _ _ => .pure .refl
  | succ budget ih =>
      intro scanner inside oneLine
      refine .get_bind ?_
      split
      · exact .pure .refl
      · have found : Ensures (firstMatch [] (run [] budget) Step.order) scanner
            fun _ after => Extends scanner after := by
          refine ensures_firstMatch (fun later => Extends scanner later) ?_ .refl
          intro step listed later extended
          have fits : later.Fits := extended.fits fun _ => oneLine
          have result : Ensures (step.rule [] (run [] budget)) later (Ruled later) := by
            by_cases layout : step = .indentation ∨ step = .endOfInput
            · exact declines_layout (extended.interpolated.trans inside) fits layout
            · rw [not_or] at layout
              exact ensures_rule ih fits listed layout.1 layout.2
          refine result.mono ?_
          rintro matched after ⟨further, _⟩
          rw [ite_self]
          exact extended.trans further
        refine found.bind ?_
        intro _ middle extended
        have oneLineMiddle : '\n' ∉ middle.unread :=
          fun newline => oneLine (extended.unread.subset newline)
        refine (ih middle (extended.interpolated.trans inside) oneLineMiddle).mono ?_
        exact fun _ after further => extended.trans further

/-! ### Among the lines -/

/-- The scanner is among the lines of a template, and the levels that it keeps are open. -/
structure Scanner.AmongLines (scanner : Scanner) : Prop where
  outside : scanner.interpolated = false
  running : scanner.ended = false
  nested : OpenNested scanner.levels.length scanner.kinds

/-- The scanner is at the end of a template, and all levels are closed. -/
structure Scanner.AtEnd (scanner : Scanner) : Prop where
  ended : scanner.ended = true
  nested : ∃ kinds, scanner.kinds = kinds ++ [.eos] ∧ Nested .lines kinds

namespace Scanner.AmongLines

variable {after : Scanner}

theorem extend (among : scanner.AmongLines) (extended : Extends scanner after) :
    after.AmongLines := by
  rcases extended.nested with ⟨added, kinds, nested⟩
  have place : scanner.place = .lines := by simp [Scanner.place, among.outside]
  refine ⟨extended.interpolated.trans among.outside,
    (extended.running among.outside).trans among.running, ?_⟩
  rw [extended.levels, kinds]
  exact among.nested.append (place ▸ nested)

theorem fits (among : scanner.AmongLines) : scanner.Fits := by
  intro inside
  rw [among.outside] at inside
  cases inside

end Scanner.AmongLines

theorem length_of_closeLevels {width closed : Nat} {levels rest : List Nat}
    (result : closeLevels width levels = .ok (closed, rest)) :
    closed + rest.length = levels.length := by
  induction levels generalizing closed with
  | nil =>
      cases result
      rfl
  | cons level levels ih =>
      unfold closeLevels at result
      split at result
      · cases result
        simp
      · split at result
        · cases result
        · cases inner : closeLevels width levels with
          | error fault => simp [inner, Except.map] at result
          | ok found =>
              simp only [inner, Except.map, Except.ok.injEq, Prod.mk.injEq] at result
              rcases result with ⟨rfl, rfl⟩
              have shorter := ih inner
              rw [List.length_cons]
              omega

/-- Tokens for leaving levels are added, and nothing else counts. -/
structure Scanner.Leaves (count : Nat) (before after : Scanner) : Prop where
  interpolated : after.interpolated = before.interpolated
  levels : after.levels = before.levels
  unread : after.unread = before.unread
  ended : after.ended = before.ended
  kinds : after.kinds = before.kinds ++ List.replicate count .outdent

theorem leaves_foldl {α : Type} {leave : Scanner → Scanner}
    (leaves : ∀ scanner, Leaves 1 scanner (leave scanner)) (entries : List α) (scanner : Scanner) :
    Leaves entries.length scanner (entries.foldl (fun left _ => leave left) scanner) := by
  induction entries generalizing scanner with
  | nil => exact ⟨rfl, rfl, rfl, rfl, by simp⟩
  | cons entry entries ih =>
      have first := leaves scanner
      have others := ih (leave scanner)
      refine ⟨others.interpolated.trans first.interpolated, others.levels.trans first.levels,
        others.unread.trans first.unread, others.ended.trans first.ended, ?_⟩
      rw [List.foldl_cons, others.kinds, first.kinds, List.append_assoc, List.length_cons,
        List.replicate_append_replicate, Nat.add_comm]

theorem leaves_pushOutdent (scanner : Scanner) : Leaves 1 scanner scanner.pushOutdent :=
  ⟨rfl, rfl, rfl, rfl, kinds_push _ _ _⟩

theorem amongLines_align (among : scanner.AmongLines) (width : Nat) :
    Gives (scanner.align width) fun after => after.AmongLines ∧ after.unread = scanner.unread := by
  unfold Scanner.align
  extract_lets line
  split
  · split
    · rintro after ⟨⟩
    · next closed levels result =>
        have depth := length_of_closeLevels result
        have leaves := leaves_foldl leaves_pushOutdent (List.replicate closed ())
          ({ scanner with levels := levels }.note (.outdented closed width))
        refine .ok ⟨⟨leaves.interpolated.trans among.outside, leaves.ended.trans among.running, ?_⟩,
          leaves.unread⟩
        rw [leaves.levels, leaves.kinds, List.length_replicate]
        apply OpenNested.outdents
        show OpenNested (closed + levels.length) scanner.kinds
        rw [depth]
        exact among.nested
  · split
    · refine .ok ⟨⟨among.outside, among.running, ?_⟩, rfl⟩
      show OpenNested (scanner.levels.length + 1) (Scanner.kinds (Scanner.push _ _ _))
      rw [kinds_push]
      exact among.nested.indent
    · refine .ok ⟨⟨among.outside, among.running, ?_⟩, rfl⟩
      rw [kinds_push]
      exact among.nested.append (.one rfl)

/-- The rule for a newline opens or closes levels. -/
theorem ensures_indentation (among : scanner.AmongLines) :
    Ensures (CheckedRule.run Rule.indentation) scanner fun matched after =>
      if matched then after.AmongLines ∧ after.unread.length < scanner.unread.length
      else after = scanner := by
  refine ensures_of_gives rfl ?_
  unfold Rule.indentation
  split
  · rintro found ⟨⟩ next ⟨⟩
  · next width measured found =>
      rcases extends_of_measure? found with ⟨⟨others, unread⟩, extended⟩
      extract_lets next
      have someText : measured.unread ≠ [] := by simp [← unread]
      have isRest : IsRest next.unread measured.unread := .drop someText (Nat.succ_pos width)
      have shorter : next.unread.length < scanner.unread.length :=
        Nat.lt_of_lt_of_le isRest.length_lt extended.unread.length_le
      have amongNext : next.AmongLines := by
        refine (among.extend extended).extend ?_
        exact .of_found_eq rfl rfl rfl rfl isRest.suffix
      split
      · rintro found ⟨⟩
      · rintro found ⟨⟩
      · refine .ok ?_
        rintro after ⟨⟩
        exact ⟨⟨amongNext.outside, amongNext.running, amongNext.nested⟩, shorter⟩
      · refine (amongLines_align amongNext width).bind ?_
        rintro aligned ⟨amongAligned, same⟩
        refine .ok ?_
        rintro after ⟨⟩
        refine ⟨⟨amongAligned.outside, amongAligned.running, amongAligned.nested⟩, ?_⟩
        exact same ▸ shorter

/-- The end of the text closes the levels that are open. -/
theorem ensures_endOfInput (among : scanner.AmongLines) :
    Ensures (CheckedRule.run Rule.endOfInput) scanner fun matched after =>
      if matched then after.AtEnd else after = scanner := by
  refine ensures_of_gives rfl ?_
  unfold Rule.endOfInput
  split
  · split
    · rintro found ⟨⟩
    · extract_lets closed
      refine .ok ?_
      rintro after ⟨⟩
      have leavesOne : ∀ left : Scanner, Leaves 1 left (left.pushHere .outdent) :=
        fun left => ⟨rfl, rfl, rfl, rfl, kinds_push left .outdent left.position⟩
      have leaves : Leaves scanner.levels.length scanner closed :=
        leaves_foldl leavesOne scanner.levels scanner
      have nested : OpenNested 0 closed.kinds := by
        rw [leaves.kinds]
        exact OpenNested.outdents among.nested
      cases nested with
      | closed nested => exact ⟨rfl, closed.kinds, kinds_push _ _ _, nested⟩
  · rintro found ⟨⟩ next ⟨⟩

/-- A step reads something, or it is the last one. -/
theorem ensures_lineStep (readsTag : ReadsTag inner) (among : scanner.AmongLines) :
    Ensures (firstMatch [] inner Step.order) scanner fun _ after =>
      after.AmongLines ∧ after.unread.length < scanner.unread.length ∨ after.AtEnd := by
  refine ensures_firstMatch (fun later => later.AmongLines ∧
    later.unread.length ≤ scanner.unread.length) ?_ ⟨among, Nat.le_refl _⟩
  rintro step listed later ⟨amongLater, notLonger⟩
  have declined : ∀ after, after = later → after.AmongLines ∧
      after.unread.length ≤ scanner.unread.length := by
    rintro after rfl
    exact ⟨amongLater, notLonger⟩
  by_cases layout : step = .indentation ∨ step = .endOfInput
  · rcases layout with rfl | rfl
    · refine (ensures_indentation amongLater).mono ?_
      intro matched after result
      cases matched with
      | false => exact declined after result
      | true => exact .inl ⟨result.1, Nat.lt_of_lt_of_le result.2 notLonger⟩
    · refine (ensures_endOfInput amongLater).mono ?_
      intro matched after result
      cases matched with
      | false => exact declined after result
      | true => exact .inr result
  · rw [not_or] at layout
    refine (ensures_rule readsTag amongLater.fits listed layout.1 layout.2).mono ?_
    rintro matched after ⟨extended, reads⟩
    have amongAfter := amongLater.extend extended
    cases matched with
    | false => exact ⟨amongAfter, Nat.le_trans extended.unread.length_le notLonger⟩
    | true =>
        rcases reads rfl with ended | shorter
        · rw [amongAfter.running] at ended
          cases ended
        · exact .inl ⟨amongAfter, Nat.lt_of_lt_of_le shorter notLonger⟩

/-- With a budget for every character that is unread a run comes to the end of the template. -/
theorem ensures_run {budget : Nat} (among : scanner.AmongLines)
    (enough : scanner.unread.length + 2 ≤ budget) :
    Ensures (run [] budget) scanner fun _ after => after.AtEnd := by
  induction budget generalizing scanner with
  | zero => omega
  | succ budget ih =>
      refine .get_bind ?_
      rw [among.running, if_neg Bool.false_ne_true]
      refine (ensures_lineStep (readsTag_run budget) among).bind ?_
      rintro _ middle (⟨amongMiddle, shorter⟩ | atEnd)
      · exact ih amongMiddle (by omega)
      · cases budget with
        | zero => omega
        | succ budget =>
            refine .get_bind ?_
            rw [atEnd.ended, if_pos rfl]
            exact .pure atEnd

/-- The tokens of a template are nested in front of the last one. -/
theorem exists_nested_of_tokenize {source : String} {options : TokenOptions}
    {events after : Array Event} {tokens : Array Token} (unplugged : options.plugins = [])
    (outside : options.interpolated = false)
    (done : tokenize source options events = .ok tokens after) :
    ∃ kinds, tokens.toList.map Token.kind = kinds ++ [.eos] ∧ Nested .lines kinds := by
  unfold tokenize at done
  split at done
  · next scanner read =>
      cases done
      rw [unplugged] at read
      have among : ({ options.scanner source with events := events } : Scanner).AmongLines :=
        ⟨outside, rfl, .closed .nil⟩
      exact (ensures_run among (Nat.le_refl _) () scanner read).nested
  · cases done

/-- The tokens of a template are nested, and the last one and no other is the end. Only attributes
stand in an attribute list; no level, newline or text block stands in an interpolated tag; and only
texts, newlines, variables and interpolated tags stand in a text block. -/
theorem tokenize_nested {source : String} {options : TokenOptions} {events after : Array Event}
    {tokens : Array Token} (unplugged : options.plugins = [])
    (outside : options.interpolated = false)
    (done : tokenize source options events = .ok tokens after) :
    ∃ kinds, tokens.toList.map Token.kind = kinds ++ [.eos] ∧ .eos ∉ kinds ∧
      Nested .lines kinds := by
  rcases exists_nested_of_tokenize unplugged outside done with ⟨kinds, found, nested⟩
  exact ⟨kinds, found, nested.eos_not_mem, nested⟩

/-- A line with attributes, and a level inside it that holds an interpolated tag. -/
theorem tokenize_attributes_tag :
    ∃ tokens after kinds, tokenize "p(a)\n  | b #[i c]" {} #[] = .ok tokens after ∧
      tokens.toList.map Token.kind = kinds ++ [.eos] ∧ Nested .lines kinds ∧
      kinds = [.tag "p", .startAttributes, .attributeEntry "a" .present, .endAttributes, .indent 2,
        .text "b ", .startInterpolation, .tag "i", .text "c", .endInterpolation, .text "",
        .outdent] := by
  have kindsFound : (match tokenize "p(a)\n  | b #[i c]" {} #[] with
      | .ok tokens _ => tokens.toList.map Token.kind
      | .error _ _ => []) =
      [.tag "p", .startAttributes, .attributeEntry "a" .present, .endAttributes, .indent 2,
        .text "b ", .startInterpolation, .tag "i", .text "c", .endInterpolation, .text "",
        .outdent] ++ [.eos] := by
    decide +kernel
  cases done : tokenize "p(a)\n  | b #[i c]" {} #[] with
  | error fault after => simp [done] at kindsFound
  | ok tokens after =>
      rcases tokenize_nested rfl rfl done with ⟨kinds, found, _, nested⟩
      simp only [done, found] at kindsFound
      exact ⟨tokens, after, kinds, rfl, found, nested, List.append_cancel_right kindsFound⟩

end Offside
