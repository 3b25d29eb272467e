import Offside.Proofs.BlankLine.Text
import Offside.Proofs.Brackets.Balanced
import Offside.Proofs.Nesting.Words

/-!
# Scanning for a closing bracket

The scan goes over balanced text and stops at the first closing bracket that does not belong to it.
Conversely, what the scan went over is balanced, apart from the brackets that are on its stack. So
the scan finds the end of a bracketed text exactly if there is one, and only otherwise finds fault.
-/

namespace Offside.Bracket

/-- The outcome of a scan that began some text earlier. -/
def Outcome.after (outcome : Outcome) (front : List Char) : Outcome :=
  front.foldr .cons outcome

/-- A text does not continue a slash in front of it to the start of a comment. -/
def Apart (text : List Char) : Prop :=
  ∀ next ∈ text.head?, next ≠ '/' ∧ next ≠ '*'

section

variable {outcome : Outcome} {character : Char} {front back : List Char}

@[simp]
theorem Outcome.after_nil : outcome.after [] = outcome := rfl

@[simp]
theorem Outcome.after_cons :
    outcome.after (character :: front) = (outcome.after front).cons character := rfl

@[simp]
theorem Outcome.after_append :
    outcome.after (front ++ back) = (outcome.after back).after front := by
  simp [Outcome.after]

@[simp]
theorem Outcome.closed_after {body rest : List Char} :
    (closed body rest).after front = closed (front ++ body) rest := by
  induction front with
  | nil => rfl
  | cons first others ih => simp [ih, cons]

@[simp]
theorem Outcome.mismatched_after {body : List Char} {expected found : Char} :
    (mismatched body expected found).after front = mismatched (front ++ body) expected found := by
  induction front with
  | nil => rfl
  | cons first others ih => simp [ih, cons]

@[simp]
theorem Outcome.unclosed_after : unclosed.after front = unclosed := by
  induction front with
  | nil => rfl
  | cons first others ih => simp [ih, cons]

theorem ne_slash_of_isClosing (closes : isClosing character = true) : character ≠ '/' := by
  rintro rfl
  simp [isClosing] at closes

theorem ne_slash_of_closing {counterpart : Char} (opens : closing character = some counterpart) :
    character ≠ '/' := by
  rintro rfl
  simp [closing] at opens

theorem apart_of_isClosing {rest : List Char} (closes : isClosing character = true) :
    Apart (character :: rest) := by
  intro next isNext
  obtain rfl : character = next := by simpa using isNext
  refine ⟨ne_slash_of_isClosing closes, ?_⟩
  rintro rfl
  simp [isClosing] at closes

theorem apart_of_closing {counterpart : Char} {rest : List Char}
    (opens : closing character = some counterpart) : Apart (character :: rest) := by
  intro next isNext
  obtain rfl : character = next := by simpa using isNext
  refine ⟨ne_slash_of_closing opens, ?_⟩
  rintro rfl
  simp [closing] at opens

theorem not_beginsComment_append {rest : List Char}
    (noComment : ¬BeginsComment (character :: front)) (apart : Apart rest) :
    ¬BeginsComment (character :: (front ++ rest)) := by
  rw [beginsComment_cons_iff] at noComment ⊢
  cases front with
  | cons next others => exact noComment
  | nil =>
      rintro ⟨_, slash | star⟩
      · exact (apart _ slash).1 rfl
      · exact (apart _ star).2 rfl

theorem isClosing_of_closing {opening counterpart : Char}
    (opens : closing opening = some counterpart) :
    isQuote opening = false ∧ isQuote counterpart = false ∧ closing counterpart = none ∧
      isClosing counterpart = true := by
  unfold closing at opens
  split at opens <;> simp at opens <;> subst opens <;> decide

theorem not_isQuote_of_isClosing (closes : isClosing character = true) :
    isQuote character = false ∧ closing character = none := by
  simp only [isClosing, Bool.or_eq_true, beq_iff_eq, or_assoc] at closes
  rcases closes with rfl | rfl | rfl <;> decide

end

/-! ### Over balanced text -/

section

variable {close : Char} {stack body rest : List Char}

theorem scan_literal_cons {quote character : Char} (noBackslash : character ≠ '\\') :
    scan close (.literal quote) stack (character :: rest) =
      if character = quote then (scan close .code stack rest).cons character
      else (scan close (.literal quote) stack rest).cons character := by
  cases rest <;> simp [scan, noBackslash]

theorem scan_literal {quote : Char} (isQuoted : isQuote quote = true)
    (inside : LiteralBody quote body) :
    scan close (.literal quote) stack (body ++ quote :: rest) =
      (scan close .code stack rest).after (body ++ [quote]) := by
  induction inside with
  | nil =>
      have noBackslash : quote ≠ '\\' := by
        rintro rfl
        simp [isQuote] at isQuoted
      simp [scan_literal_cons noBackslash]
  | escaped following ih => simp [scan, ih]
  | plain noBackslash noQuote following ih => simp [scan_literal_cons noBackslash, noQuote, ih]

theorem scan_lineComment (oneLine : '\n' ∉ body) :
    scan close .lineComment stack (body ++ '\n' :: rest) =
      (scan close .code stack rest).after (body ++ ['\n']) := by
  induction body with
  | nil => simp [scan]
  | cons first others ih =>
      rw [List.mem_cons, not_or] at oneLine
      simp [scan, Ne.symm oneLine.1, ih oneLine.2]

theorem scan_blockComment (noEnd : ¬['*', '/'] <:+: body) :
    scan close .blockComment stack (body ++ '*' :: '/' :: rest) =
      (scan close .code stack rest).after (body ++ ['*', '/']) := by
  induction body with
  | nil => simp [scan]
  | cons first others ih =>
      have noEndBehind : ¬['*', '/'] <:+: others :=
        fun inside => noEnd (inside.trans (List.suffix_cons first others).isInfix)
      have continues : ∀ behind, first = '*' → others ++ '*' :: '/' :: rest = '/' :: behind →
          False := by
        rintro behind rfl text
        cases others with
        | nil => simp at text
        | cons second more =>
            obtain rfl : second = '/' := (List.cons.inj text).1
            exact noEnd ⟨[], more, rfl⟩
      rw [List.cons_append, scan, ih noEndBehind]
      · rfl
      · exact continues

theorem scan_balanced (balanced : Balanced body) (apart : Apart rest) :
    scan close .code stack (body ++ rest) = (scan close .code stack rest).after body := by
  induction balanced generalizing stack rest with
  | nil => rfl
  | @ordinary character others noQuote noOpening noClosing noComment following ih =>
      have noComment := not_beginsComment_append noComment apart
      rw [beginsComment_cons_iff] at noComment
      rw [List.cons_append, scan_other, ih apart, Outcome.after_cons]
      · rintro _ rfl begins
        simp [begins] at noComment
      · rintro _ rfl begins
        simp [begins] at noComment
      all_goals simp [noQuote, noOpening, noClosing]
  | @literal quote literal others isQuoted inside following ih =>
      have behind : scan close .code stack (others ++ rest) = _ := ih apart
      rw [List.cons_append, scan_quote _ _ isQuoted, List.append_assoc, List.cons_append,
        scan_literal isQuoted inside, behind]
      · simp
      all_goals
        rintro _ rfl
        simp [isQuote] at isQuoted
  | @lineComment comment others oneLine following ih =>
      simp [scan, scan_lineComment oneLine, ih apart]
  | @blockComment comment others noEnd following ih =>
      simp [scan, scan_blockComment noEnd, ih apart]
  | @nested opening counterpart inside others opens within following ihWithin ih =>
      rcases isClosing_of_closing opens with ⟨noQuote, noQuoteClosing, noOpening, closes⟩
      have noSlash := ne_slash_of_closing opens
      have noSlashClosing := ne_slash_of_isClosing closes
      rw [List.cons_append, scan_opening _ _ (by simp [noQuote]) opens, List.append_assoc,
        List.cons_append, ihWithin (apart_of_isClosing closes),
        scan_expected _ _ (by simp [noQuoteClosing]) noOpening closes, ih apart]
      · simp
      all_goals simp_all

theorem scan_opened (opened : Opened stack body) (apart : Apart rest) :
    scan close .code [] (body ++ rest) = (scan close .code stack rest).after body := by
  induction opened generalizing rest with
  | balanced whole => exact scan_balanced whole apart
  | @bracket stack front inside opening counterpart before opens within ih =>
      have noQuote := (isClosing_of_closing opens).1
      have noSlash := ne_slash_of_closing opens
      rw [List.append_assoc, List.cons_append, ih (apart_of_closing opens),
        scan_opening _ _ (by simp [noQuote]) opens, scan_balanced within apart]
      · simp
      all_goals simp [noSlash]

end

/-! ### What the scan went over -/

/-- Reading a text from inside of something leads from one stack of open brackets to code with
another one. -/
def Context.Leads (stack text after : List Char) : Context → Prop
  | code => Reaches stack text after
  | literal quote =>
      ∃ body rest, text = body ++ quote :: rest ∧ LiteralBody quote body ∧ Reaches stack rest after
  | lineComment =>
      ∃ body rest, text = body ++ '\n' :: rest ∧ '\n' ∉ body ∧ Reaches stack rest after
  | blockComment =>
      ∃ body rest, text = body ++ '*' :: '/' :: rest ∧ ¬['*', '/'] <:+: body ∧
        Reaches stack rest after

/-- The text in front of the bracket at which a scan stopped leads to no open bracket, or to a stack
on which another bracket is expected. -/
def Outcome.Stops (close : Char) (leads : List Char → List Char → Prop) : Outcome → Prop
  | closed body _ => leads body []
  | unclosed => True
  | mismatched body expected found =>
      isClosing found = true ∧ ∃ after, leads body after ∧ expected = after.headD close ∧
        found ≠ expected

theorem Outcome.Stops.after {close : Char} {leads leadsMore : List Char → List Char → Prop}
    {outcome : Outcome} {text : List Char} (stops : outcome.Stops close leads)
    (cuts : outcome.Cuts close text) (front : List Char)
    (more : ∀ body after, body <+: text → leads body after → leadsMore (front ++ body) after) :
    (outcome.after front).Stops close leadsMore := by
  cases outcome with
  | closed body rest =>
      rw [closed_after]
      exact more body [] ⟨_, cuts.symm⟩ stops
  | unclosed =>
      rw [unclosed_after]
      trivial
  | mismatched body expected found =>
      rcases stops with ⟨closes, after, leads, isExpected, other⟩
      rcases cuts with ⟨rest, cut⟩
      rw [mismatched_after]
      exact ⟨closes, after, more body after ⟨_, cut.symm⟩ leads, isExpected, other⟩

section

variable {character : Char} {stack text body after : List Char}

theorem not_beginsComment_of_front (isPrefix : body <+: text)
    (noLine : ∀ others, character = '/' → text = '/' :: others → False)
    (noBlock : ∀ others, character = '/' → text = '*' :: others → False) :
    ¬BeginsComment (character :: body) := by
  rw [beginsComment_cons_iff]
  rcases isPrefix with ⟨rest, rfl⟩
  rintro ⟨rfl, starts | starts⟩
  · rcases List.head?_eq_some_iff.mp starts with ⟨others, rfl⟩
    exact noLine (others ++ rest) rfl rfl
  · rcases List.head?_eq_some_iff.mp starts with ⟨others, rfl⟩
    exact noBlock (others ++ rest) rfl rfl

namespace Context

theorem leads_escaped {quote escaped : Char} (leads : (literal quote).Leads stack text after) :
    (literal quote).Leads stack ('\\' :: escaped :: text) after := by
  rcases leads with ⟨body, rest, rfl, inside, reaches⟩
  exact ⟨'\\' :: escaped :: body, rest, rfl, inside.escaped, reaches⟩

theorem leads_plain {quote : Char} (noBackslash : character ≠ '\\') (noQuote : character ≠ quote)
    (leads : (literal quote).Leads stack text after) :
    (literal quote).Leads stack (character :: text) after := by
  rcases leads with ⟨body, rest, rfl, inside, reaches⟩
  exact ⟨character :: body, rest, rfl, .plain noBackslash noQuote inside, reaches⟩

theorem leads_lineComment (noNewline : character ≠ '\n')
    (leads : lineComment.Leads stack text after) :
    lineComment.Leads stack (character :: text) after := by
  rcases leads with ⟨body, rest, rfl, oneLine, reaches⟩
  refine ⟨character :: body, rest, rfl, ?_, reaches⟩
  simp [oneLine, Ne.symm noNewline]

theorem leads_blockComment {whole : List Char} (isPrefix : text <+: whole)
    (noEnd : ∀ others, character = '*' → whole = '/' :: others → False)
    (leads : blockComment.Leads stack text after) :
    blockComment.Leads stack (character :: text) after := by
  rcases leads with ⟨body, rest, rfl, noEndInside, reaches⟩
  refine ⟨character :: body, rest, rfl, ?_, reaches⟩
  rw [List.infix_cons_iff, not_or]
  refine ⟨fun starts => ?_, noEndInside⟩
  rcases List.cons_prefix_cons.mp starts with ⟨rfl, slash⟩
  rcases (slash.trans (List.prefix_append _ _)).trans isPrefix with ⟨others, rfl⟩
  exact noEnd others rfl rfl

end Context

end

theorem stops_scan (close : Char) (context : Context) (stack text : List Char) :
    (scan close context stack text).Stops close fun body after =>
      context.Leads stack body after := by
  have still (stack : List Char) : Reaches stack [] stack := .opened (.balanced .nil)
  fun_induction scan close context stack text with
  | case1 | case2 => trivial
  | case3 stack quote escaped text ih =>
      exact ih.after (cuts_scan ..) ['\\', escaped] fun _ _ _ => Context.leads_escaped
  | case4 stack character text _ ih =>
      exact ih.after (cuts_scan ..) [character]
        fun body _ _ reaches => ⟨[], body, rfl, .nil, reaches⟩
  | case5 quote stack character text noBackslash noQuote ih =>
      exact ih.after (cuts_scan ..) [character] fun _ _ _ => Context.leads_plain noBackslash noQuote
  | case6 stack text ih =>
      exact ih.after (cuts_scan ..) ['\n'] fun body _ _ reaches => ⟨[], body, rfl, by simp, reaches⟩
  | case7 stack character text noNewline ih =>
      exact ih.after (cuts_scan ..) [character] fun _ _ _ => Context.leads_lineComment noNewline
  | case8 stack text ih =>
      exact ih.after (cuts_scan ..) ['*', '/'] fun body _ _ reaches =>
        ⟨[], body, rfl, by simp, reaches⟩
  | case9 stack character text noEnd ih =>
      exact ih.after (cuts_scan ..) [character] fun _ _ isPrefix =>
        Context.leads_blockComment isPrefix noEnd
  | case10 stack text ih =>
      refine ih.after (cuts_scan ..) ['/', '/'] ?_
      rintro _ _ _ ⟨body, rest, rfl, oneLine, reaches⟩
      exact reaches.lineComment oneLine
  | case11 stack text ih =>
      refine ih.after (cuts_scan ..) ['/', '*'] ?_
      rintro _ _ _ ⟨body, rest, rfl, noEnd, reaches⟩
      exact reaches.blockComment noEnd
  | case12 stack character text _ _ isQuoted ih =>
      refine ih.after (cuts_scan ..) [character] ?_
      rintro _ _ _ ⟨body, rest, rfl, inside, reaches⟩
      exact reaches.literal isQuoted inside
  | case13 stack character text _ _ _ counterpart opens ih =>
      exact ih.after (cuts_scan ..) [character] fun _ _ _ reaches => reaches.bracket opens
  | case14 => exact still []
  | case15 character text _ _ _ _ closes other => exact ⟨closes, [], still [], rfl, other⟩
  | case16 text character stack _ _ _ _ _ ih =>
      exact ih.after (cuts_scan ..) [character] fun _ _ _ reaches => .closing .nil reaches
  | case17 character text _ _ _ _ closes expected stack other =>
      exact ⟨closes, expected :: stack, still _, rfl, other⟩
  | case18 stack character text noLine noBlock noQuote noOpening noClosing ih =>
      refine ih.after (cuts_scan ..) [character] fun _ _ isPrefix reaches => ?_
      exact reaches.ordinary (by simpa using noQuote) noOpening (by simpa using noClosing)
        (not_beginsComment_of_front isPrefix noLine noBlock)

end Offside.Bracket
