import Mathlib.Data.List.TakeWhile
import Mathlib.Data.Option.Basic
import Offside.Proofs.Computation
import Offside.Proofs.Nesting.Extension
import Offside.Token.Keyword
import Offside.Token.Name

/-!
# Rules for one token

The rules for keywords, names and signs read something and add one token for it.
-/

namespace Offside

open Computing Scanner Text

namespace Bracket

/-- A closed outcome cuts the text at the closing bracket, and one that does not match cuts it at
the bracket that was found. -/
def Outcome.Cuts (close : Char) (text : List Char) : Outcome → Prop
  | closed body rest => text = body ++ close :: rest
  | unclosed => True
  | mismatched body _ found => ∃ rest, text = body ++ found :: rest

theorem Outcome.Cuts.cons {close character : Char} {text : List Char} {outcome : Outcome}
    (cuts : outcome.Cuts close text) :
    (outcome.cons character).Cuts close (character :: text) := by
  cases outcome with
  | closed body rest => exact congrArg (character :: ·) cuts
  | unclosed => exact cuts
  | mismatched =>
      rcases cuts with ⟨rest, rfl⟩
      exact ⟨rest, rfl⟩

theorem cuts_scan (close : Char) (context : Context) (stack text : List Char) :
    (scan close context stack text).Cuts close text := by
  fun_induction scan close context stack text with
  | case3 _ _ _ _ ih | case8 _ _ ih | case10 _ _ ih | case11 _ _ ih => exact ih.cons.cons
  | case4 | case5 | case6 | case7 | case9 | case12 | case13 | case16 | case18 => 
     exact Outcome.Cuts.cons ‹_›
  | case14 => rfl
  | case15 | case17 => exact ⟨_, rfl⟩
  | _ => trivial

theorem eq_append_of_find_eq_closed {close : Char} {text body rest : List Char}
    (closed : find close text = .closed body rest) : text = body ++ close :: rest := by
  have cuts := cuts_scan close .code [] text
  rw [find] at closed
  rwa [closed] at cuts

theorem exists_append_of_find_eq_mismatched {close expected found : Char} {text body : List Char}
    (mismatched : find close text = .mismatched body expected found) :
    ∃ rest, text = body ++ found :: rest := by
  have cuts := cuts_scan close .code [] text
  rw [find] at mismatched
  rwa [mismatched] at cuts

end Bracket

namespace Rule

variable {scanner next : Scanner} {keyword : String} {kind : TokenKind}

theorem endOfLine?_eq_some {token : Token} {matched rest : List Char}
    (found : scanner.endOfLine? matched rest kind = some (token, next)) :
    token.kind = kind ∧ ∃ unread position, unread <:+ rest ∧
      next = { scanner with unread := unread, position := position } := by
  unfold Scanner.endOfLine? at found
  split at found
  · cases found
    exact ⟨rfl, _, _, List.suffix_rfl, rfl⟩
  · have blanks := List.dropWhile_suffix isIndentation (l := rest)
    split at found
    · cases found
      exact ⟨rfl, _, _, List.nil_suffix, rfl⟩
    · next behind =>
        cases found
        exact ⟨rfl, _, _, behind ▸ blanks, rfl⟩
    · cases found

theorem takes_endOfLine {token : Token} {matched rest : List Char}
    (found : scanner.endOfLine? matched rest kind = some (token, next))
    (allowed : Surrounding.interpolation.allows kind = true) (isRest : IsRest rest scanner.unread) :
    Takes scanner (next.pushToken token) := by
  rcases endOfLine?_eq_some found with ⟨rfl, unread, position, suffix, rfl⟩
  exact ⟨rfl, rfl, rfl, ⟨token, rfl, allowed⟩, isRest.trans suffix⟩

theorem isRest_of_afterKeyword? {text rest : List Char} (someKeyword : keyword ≠ "")
    (found : afterKeyword? keyword text = some rest) : IsRest rest text := by
  rw [afterKeyword?, after?_eq_some_iff] at found
  rw [found]
  exact IsRest.append (mt String.toList_eq_nil_iff.mp someKeyword)

theorem takes_keywordLine (someKeyword : keyword ≠ "")
    (allowed : Surrounding.interpolation.allows kind = true)
    (matched : keywordLine keyword kind scanner = some next) : Takes scanner next := by
  simp only [keywordLine, Option.bind_eq_bind, Option.bind_eq_some_iff] at matched
  rcases matched with ⟨rest, found, ⟨token, after⟩, ends, ⟨⟩⟩
  exact takes_endOfLine ends allowed (isRest_of_afterKeyword? someKeyword found)

theorem exists_append_of_opensWith {stops text : List Char}
    (opens : opensWith keyword stops text = true) : ∃ rest, text = keyword.toList ++ rest := by
  unfold opensWith at opens
  split at opens
  · cases opens
  · next found => exact ⟨_, after?_eq_some_iff.mp found⟩
  · next found => exact ⟨_, after?_eq_some_iff.mp found⟩

theorem takes_keyword {stops : List Char} (someKeyword : keyword ≠ "")
    (opens : opensWith keyword stops scanner.unread = true)
    (allowed : Surrounding.interpolation.allows kind = true) :
    Takes scanner (scanner.emit kind keyword.length) := by
  rcases exists_append_of_opensWith opens with ⟨rest, unread⟩
  have someLetters : keyword.toList ≠ [] := mt String.toList_eq_nil_iff.mp someKeyword
  refine takes_emit allowed ?_ ?_
  · rw [unread]
    exact List.append_ne_nil_of_left_ne_nil someLetters rest
  · rw [← String.length_toList]
    exact List.length_pos_iff.mpr someLetters

theorem takes_doctype (matched : doctype scanner = some next) : Takes scanner next := by
  unfold doctype at matched
  split at matched
  · next opens =>
      cases matched
      rcases exists_append_of_opensWith opens with ⟨rest, unread⟩
      refine takes_emit rfl ?_ ?_
      · simp [unread]
      · simp [unread, firstLine]
  · cases matched

theorem takes_default (matched : defaultKeyword scanner = .ok (some next)) :
    Takes scanner next := by
  unfold defaultKeyword at matched
  split at matched
  · next found =>
      cases matched
      exact takes_keywordLine (by decide) rfl found
  · split at matched <;> cases matched

theorem isRest_of_keywordSpaces? {text front rest : List Char} (someKeyword : keyword ≠ "")
    (found : keywordSpaces? keyword text = some (front, rest)) : IsRest rest text := by
  simp only [keywordSpaces?, Option.bind_eq_bind, Option.bind_eq_some_iff] at found
  rcases found with ⟨behind, keywordFound, spaces⟩
  split at spaces
  · cases spaces
  · cases spaces
    exact (isRest_of_afterKeyword? someKeyword keywordFound).trans (List.dropWhile_suffix _)

theorem isRest_of_blockHead? {text head rest : List Char} {afterBlock : Bool}
    (someKeyword : keyword ≠ "") (found : blockHead? keyword afterBlock text = some (head, rest)) :
    IsRest rest text := by
  rcases (Option.orElse_eq_some _ _ _).mp found with long | ⟨_, short⟩
  · split at long
    · simp only [Option.bind_eq_bind, Option.bind_eq_some_iff] at long
      rcases long with ⟨⟨front, behind⟩, blockFound, ⟨matched, others⟩, keywordFound, ⟨⟩⟩
      have behindBlock := isRest_of_keywordSpaces? (by decide) blockFound
      exact behindBlock.trans (isRest_of_keywordSpaces? someKeyword keywordFound).suffix
    · cases long
  · exact isRest_of_keywordSpaces? someKeyword short

theorem takes_namedBlock {afterBlock : Bool} {mode : BlockMode} (someKeyword : keyword ≠ "")
    (matched : namedBlock keyword afterBlock mode scanner = some next) : Takes scanner next := by
  simp only [namedBlock, Option.bind_eq_bind, Option.bind_eq_some_iff] at matched
  rcases matched with ⟨⟨head, rest⟩, headFound, named⟩
  split at named
  · cases named
  · cases named
    have isRest := isRest_of_blockHead? someKeyword headFound
    exact ⟨rfl, rfl, rfl, ⟨_, rfl, rfl⟩, isRest.trans (List.drop_suffix _ _)⟩

theorem takes_mixin (matched : mixin scanner = some next) : Takes scanner next := by
  simp only [mixin, Option.bind_eq_bind, Option.bind_eq_some_iff] at matched
  rcases matched with ⟨⟨head, rest⟩, headFound, named⟩
  rcases isRest_of_keywordSpaces? (by decide) headFound with ⟨first, others, unread, _⟩
  split at named
  · cases named
  · next someName =>
      cases named
      have nameLength := List.length_pos_iff.mpr (mt List.isEmpty_iff.mpr someName)
      refine takes_emit rfl (by simp [unread]) ?_
      omega

theorem dropEndWhile_cons_ne_nil {condition : Char → Bool} {first : Char} {rest : List Char}
    (fails : condition first = false) : dropEndWhile condition (first :: rest) ≠ [] := by
  intro empty
  rw [dropEndWhile, List.reverse_eq_nil_iff, List.dropWhile_eq_nil_iff] at empty
  simp [empty first (by simp)] at fails

theorem takes_tag (matched : tag scanner = some next) : Takes scanner next := by
  unfold tag at matched
  split at matched
  · next first others unread =>
      split at matched
      · next isWordFirst =>
          cases matched
          refine takes_emit rfl (by simp [unread]) (List.length_pos_iff.mpr ?_)
          rw [unread, List.takeWhile_cons_of_pos (by simp [isWordOrDash, isWordFirst])]
          apply dropEndWhile_cons_ne_nil
          have noDash := ne_of_isWord isWordFirst (by decide : isWord '-' = false)
          have noColon := ne_of_isWord isWordFirst (by decide : isWord ':' = false)
          simp [noDash, noColon]
      · cases matched
  · cases matched

theorem takes_id (matched : id scanner = .ok (some next)) : Takes scanner next := by
  unfold id at matched
  split at matched
  · next rest unread =>
      dsimp only at matched
      split at matched
      · cases matched
      · cases matched
        exact takes_emit rfl (by simp [unread]) (by omega)
  · cases matched

theorem takes_className (matched : className scanner = .ok (some next)) : Takes scanner next := by
  unfold className at matched
  split at matched
  · next rest unread =>
      dsimp only at matched
      split at matched
      · cases matched
        exact takes_emit rfl (by simp [unread]) (by omega)
      · split at matched <;> cases matched
  · cases matched

theorem takes_slash (matched : slash scanner = some next) : Takes scanner next := by
  unfold slash at matched
  split at matched
  · next rest unread =>
      cases matched
      exact takes_emit rfl (by simp [unread]) (by omega)
  · cases matched

theorem takes_colon (matched : colon scanner = some next) : Takes scanner next := by
  unfold colon at matched
  split at matched
  · next rest unread =>
      dsimp only at matched
      split at matched
      · cases matched
      · cases matched
        exact takes_emit rfl (by simp [unread]) (by omega)
  · cases matched

theorem suffix_of_bracketed {opening text body rest : List Char} {close : Char}
    (closed : scanner.bracketed opening close text = .ok (body, rest)) :
    rest <:+ text := by
  unfold Scanner.bracketed at closed
  split at closed
  · next found =>
      cases closed
      rw [Bracket.eq_append_of_find_eq_closed found]
      exact (List.suffix_cons close rest).trans (List.suffix_append body _)
  · cases closed
  · cases closed

theorem takes_interpolation (matched : interpolation scanner = .ok (some next)) :
    Takes scanner next := by
  unfold interpolation at matched
  split at matched
  · next inside unread =>
      cases closed : scanner.bracketed ['#', '\x7b'] '\x7d' inside with
      | error fault => simp [closed, bind, Except.bind] at matched
      | ok cut =>
          rcases cut with ⟨body, rest⟩
          simp only [closed, bind, Except.bind, pure, Except.pure, Except.ok.injEq,
            Option.some.injEq] at matched
          subst matched
          refine ⟨rfl, rfl, rfl, ⟨_, rfl, rfl⟩, ?_⟩
          rw [unread]
          exact .cons ((suffix_of_bracketed closed).trans (List.suffix_cons _ _))
  · cases matched

theorem takes_call (matched : call scanner = .ok (some next)) : Takes scanner next := by
  unfold call at matched
  split at matched
  · next inside unread =>
      extract_lets blanks behind name rest moved named plain spaces at matched
      have suffix : rest <:+ inside :=
        (List.drop_suffix _ behind).trans (List.dropWhile_suffix _)
      split at matched
      · cases matched
      · split at matched
        · next arguments bracket =>
            have argumentsSuffix : arguments <:+ rest :=
              (List.suffix_cons '(' arguments).trans (bracket ▸ List.dropWhile_suffix _)
            cases closed : named.bracketed (spaces ++ ['(']) ')' arguments with
            | error fault => simp [closed, bind, Except.bind] at matched
            | ok cut =>
                rcases cut with ⟨body, others⟩
                simp only [closed, bind, Except.bind, pure, Except.pure] at matched
                split at matched
                · have same : plain = next := Option.some.inj (Except.ok.inj matched)
                  rw [← same]
                  exact ⟨rfl, rfl, rfl, ⟨_, rfl, rfl⟩, unread ▸ .cons suffix⟩
                · cases matched
                  have behindCall := (suffix_of_bracketed closed).trans argumentsSuffix
                  exact ⟨rfl, rfl, rfl, ⟨_, rfl, rfl⟩, unread ▸ .cons (behindCall.trans suffix)⟩
        · have same : plain = next := Option.some.inj (Except.ok.inj matched)
          rw [← same]
          exact ⟨rfl, rfl, rfl, ⟨_, rfl, rfl⟩, unread ▸ .cons suffix⟩
  · cases matched

theorem ensures_path : Ensures path scanner (Ruled scanner) := by
  intro matched after done
  unfold path at done
  split at done
  · next rest unread =>
      dsimp only at done
      split at done
      · cases done
        exact .declined
      · split at done
        · cases done
          exact .declined
        · next token behind found =>
            have isRest : IsRest (rest.drop (firstLine rest).length) scanner.unread :=
              unread ▸ .cons (List.drop_suffix _ _)
            have takes := takes_endOfLine found rfl isRest
            split at done
            · -- The scanner has moved on, but the token is not added.
              cases done
              rcases endOfLine?_eq_some found with ⟨_, unread, position, suffix, rfl⟩
              have moved :
                  Extends scanner { scanner with unread := unread, position := position } :=
                .of_found_eq rfl rfl rfl rfl (isRest.trans suffix).suffix
              exact ⟨moved, by simp⟩
            · cases done
              exact takes.ruled true
  · cases done
    exact .declined

/-- Between blank lines the text stays at the start of a line. -/
theorem ensures_blankLine : Ensures (SimpleRule.run blankLine) scanner fun matched after =>
    Ruled scanner matched after ∧ (['\n'] <+: scanner.unread → ['\n'] <+: after.unread) := by
  intro matched after done
  simp only [SimpleRule.run, blankLine] at done
  split at done
  · next found =>
      cases done
      split at found
      · next rest unread =>
          split at found
          · next others blanks =>
              cases found
              have isRest : IsRest ('\n' :: others) scanner.unread :=
                unread ▸ .cons (blanks ▸ List.dropWhile_suffix _)
              exact ⟨⟨.of_found_eq rfl rfl rfl rfl isRest.suffix, fun _ => .inr isRest.length_lt⟩,
                fun _ => List.prefix_append ['\n'] others⟩
          · cases found
      · cases found
  · cases done
    exact ⟨.declined, fun atLine => atLine⟩

end Rule

/-! ### Running a rule -/

section

variable {scanner : Scanner}

theorem ensures_simple {rule : SimpleRule}
    (takes : ∀ next, rule scanner = some next → Takes scanner next) :
    Ensures rule.run scanner (Ruled scanner) := by
  intro matched after done
  unfold SimpleRule.run at done
  split at done
  · next found =>
      cases done
      exact (takes _ found).ruled true
  · cases done
    exact .declined

theorem ensures_of_gives {rule : CheckedRule} {holds : Bool → Scanner → Prop}
    (declined : holds false scanner)
    (gives : Gives (rule scanner) fun found => ∀ next ∈ found, holds true next) :
    Ensures rule.run scanner holds := by
  intro matched after done
  unfold CheckedRule.run at done
  split at done
  · next found =>
      cases done
      exact gives _ found _ rfl
  · cases done
    exact declined
  · cases done

theorem ensures_checked {rule : CheckedRule}
    (takes : ∀ next, rule scanner = .ok (some next) → Takes scanner next) :
    Ensures rule.run scanner (Ruled scanner) := by
  refine ensures_of_gives .declined ?_
  rintro found done next rfl
  exact (takes next done).ruled true

end

end Offside
