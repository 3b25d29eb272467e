import Offside.Proofs.Layout.Spelling

/-!
# The tokens of a written template

A source in which entries are laid out is cut into tokens that spell them, and the one for the end
of the text.
-/

namespace Offside

open Computing Relation Text

/-! ### The end of the text -/

section

variable {unit : IndentUnit} {levels : List Nat} {kinds : List TokenKind} {scanner : Scanner}

theorem Scanner.Shows.pushHereOutdents {text : List Char} {held : List Nat}
    (shows : scanner.Shows unit text held kinds) (levels : List Nat) :
    (levels.foldl (fun closed _ => closed.pushHere .outdent) scanner).Shows unit text held
      (kinds ++ List.replicate levels.length .outdent) := by
  induction levels generalizing scanner kinds with
  | nil => simpa using shows
  | cons level levels ih =>
      simpa [List.replicate_succ, Scanner.pushHere] using ih (shows.push .outdent _)

/-- At the end of the text all open levels are closed. -/
theorem exists_stepsTo_end (shows : scanner.Shows unit [] levels kinds) :
    ∃ next, scanner.StepsTo next ∧ next.ended = true ∧ next.found.reverse.map Token.kind =
      kinds ++ List.replicate levels.length .outdent ++ [.eos] := by
  have closed := (shows.pushHereOutdents levels).push .eos
    (levels.foldl (fun closed _ => closed.pushHere .outdent) scanner).position
  refine ⟨{ Scanner.pushHere
      (levels.foldl (fun closed _ => Scanner.pushHere closed .outdent) scanner) .eos with
    levels := [], ended := true }, ⟨shows.running, fun inner => ?_, by simp⟩, rfl, closed.kinds⟩
  rcases Step.exists_order_eq_endOfInput with ⟨rest, order⟩
  rw [order]
  apply firstMatch_of_forall_declines
  · intro step mem
    rw [List.mem_singleton.mp mem]
    intro inner
    simp [Step.rule, SimpleRule.run, Rule.blankLine, shows.unread]
  · simp [Step.rule, CheckedRule.run, Rule.endOfInput, shows.unread, shows.outside, shows.levels]

end

/-! ### The characters of a source -/

theorem normalizeNewlines_cons_of_ne {character : Char} (other : character ≠ '\r')
    (rest : List Char) :
    normalizeNewlines (character :: rest) = character :: normalizeNewlines rest := by
  rw [normalizeNewlines] <;> simp [other]

theorem normalizeNewlines_append {front : List Char} (noReturn : '\r' ∉ front)
    (rest : List Char) : normalizeNewlines (front ++ rest) = front ++ normalizeNewlines rest := by
  induction front with
  | nil => rfl
  | cons character others ih =>
      rw [List.mem_cons, not_or] at noReturn
      rw [List.cons_append, normalizeNewlines_cons_of_ne (Ne.symm noReturn.1), ih noReturn.2,
        List.cons_append]

/-- A text without carriage returns is not changed. -/
theorem normalizeNewlines_eq_self {text : List Char} (noReturn : '\r' ∉ text) :
    normalizeNewlines text = text := by
  simpa [normalizeNewlines] using normalizeNewlines_append noReturn []

namespace ElementName

variable (name : ElementName)

theorem noReturn : '\r' ∉ name.value.toList := by
  intro mem
  exact absurd (name.isWord_of_mem mem) (by decide)

/-- A text that begins with a name does not begin with a byte order mark. -/
theorem noMark {text : List Char} (begins : name.value.toList <+: text) :
    ∀ first ∈ text.head?, first ≠ byteOrderMark := by
  rcases begins with ⟨after, rfl⟩
  rcases name.exists_eq_cons with ⟨first, more, chars⟩
  have isWordFirst : isWord first = true := name.isWord_of_mem (by simp [chars])
  simpa [chars] using ne_of_isWord isWordFirst (by decide)

end ElementName

theorem Entry.noReturn_line (entry : Entry) : '\r' ∉ entry.line := by
  cases entry with
  | element name text children =>
      have nameFree := name.noReturn
      cases text with
      | none => exact nameFree
      | some content => simp [Entry.line, Element.line, nameFree, content.noReturn]
  | inclusion path included =>
      have keywordFree : '\r' ∉ "include".toList := by decide
      intro mem
      rcases List.mem_append.mp mem with mem | mem
      · exact keywordFree mem
      · exact path.noReturn (by simpa using mem)

theorem Entry.Layout.noReturn {unit : IndentUnit} {width : Nat} {entries : List Entry}
    {lines : List (List Char)} (layout : Entry.Layout unit width entries lines) :
    ∀ line ∈ lines, '\r' ∉ line := by
  induction layout with
  | nil => simp
  | @cons width step entry rest blank inside after deeper blankLines layoutInside layoutAfter
      insideFree afterFree =>
      have indentationFree : '\r' ∉ List.replicate width unit.character := by
        intro mem
        have same := List.eq_of_mem_replicate mem
        cases unit <;> simp [IndentUnit.character] at same
      have blankFree : ∀ line ∈ blank, '\r' ∉ line := by
        intro line mem inLine
        exact absurd (blankLines line mem _ inLine) (by decide)
      have firstFree : '\r' ∉ List.replicate width unit.character ++ entry.line := by
        simp only [List.mem_append, not_or]
        exact ⟨indentationFree, entry.noReturn_line⟩
      exact List.forall_mem_cons.mpr ⟨firstFree, List.forall_mem_append.mpr
        ⟨List.forall_mem_append.mpr ⟨blankFree, insideFree⟩, afterFree⟩⟩

/-- A text that begins with the line of an entry does not begin with a byte order mark. -/
theorem Entry.noMark {entry : Entry} {text : List Char} (begins : entry.line <+: text) :
    ∀ first ∈ text.head?, first ≠ byteOrderMark := by
  cases entry with
  | element name content children =>
      have line : name.value.toList <+: Element.line name content := by
        cases content <;> simp [Element.line]
      exact name.noMark (line.trans begins)
  | inclusion path included =>
      rcases begins with ⟨after, rfl⟩
      intro first found
      have same : 'i' = first := Option.some.inj found
      subst same
      decide

theorem flatMap_append_newline (line : List Char) (rest : List (List Char)) :
    (line :: rest).flatMap (· ++ ['\n']) = line ++ unlines rest ++ ['\n'] := by
  induction rest generalizing line with
  | nil => simp [unlines]
  | cons next rest ih => 
    rw [List.flatMap_cons, ih, unlines_cons]
    simp

theorem noReturn_of_written {source : String} {lines : List (List Char)}
    (free : ∀ line ∈ lines, '\r' ∉ line) (written : WrittenIn source lines) :
    '\r' ∉ source.toList := by
  have linesFree : '\r' ∉ lines.flatMap (· ++ ['\n']) := by
    simpa using free
  rcases written with whole | ⟨cut, _⟩
  · rwa [whole]
  · intro mem
    rw [← cut] at linesFree
    exact linesFree (List.mem_append_left _ mem)

/-- What the scanner of a source starts with. -/
theorem shows_scanner {unit : IndentUnit} {source : String} (options : TokenOptions)
    (events : Array Event) (noReturn : '\r' ∉ source.toList)
    (noMark : ∀ first ∈ source.toList.head?, first ≠ byteOrderMark)
    (outside : options.interpolated = false) :
    Scanner.Shows { options.scanner source with events := events } unit source.toList [] [] := by
  have unmarked : dropMark source.toList = source.toList := by
    cases chars : source.toList with
    | nil => rfl
    | cons first rest => simp [dropMark, noMark first (by simp [chars])]
  refine ⟨?_, rfl, rfl, .inl rfl, rfl, outside⟩
  simp [TokenOptions.scanner, Scanner.ofSource, Scanner.ofText, unmarked,
    normalizeNewlines_eq_self noReturn]

/-! ### The whole text -/

section

variable {unit : IndentUnit} {entries : List Entry} {lines : List (List Char)} {source : String}

/-- The lines stand in the source, up to the last newline. -/
theorem source_eq_or {line : List Char} {more : List (List Char)} (first : lines = line :: more)
    (written : WrittenIn source lines) :
    source.toList = line ++ unlines more ++ ['\n'] ∨
      source.toList = line ++ unlines more ∧ ∀ last ∈ lines.getLast?, ¬IsBlankLine last := by
  have whole : lines.flatMap (· ++ ['\n']) = line ++ unlines more ++ ['\n'] := by
    rw [first, flatMap_append_newline]
  rcases written with all | ⟨cut, filled⟩
  · exact .inl (all.trans whole)
  · exact .inr ⟨List.append_cancel_right (cut.trans whole), filled⟩

theorem noMark_of_written (layout : Entry.Layout unit 0 entries lines)
    (written : WrittenIn source lines) :
    ∀ first ∈ source.toList.head?, first ≠ byteOrderMark := by
  cases entries with
  | nil =>
      rw [layout.lines_eq_nil] at written
      have empty : source.toList = [] := by simpa [WrittenIn] using written
      simp [empty]
  | cons entry rest =>
      rcases layout.exists_eq_cons (by simp) with ⟨entry, more, first⟩
      rw [List.replicate_zero, List.nil_append] at first
      apply entry.noMark
      rcases source_eq_or first written with all | ⟨all, _⟩
      · rw [all, List.append_assoc]
        exact List.prefix_append _ _
      · rw [all]
        exact List.prefix_append _ _

/-- The scanner comes to the end of a source, where only the open levels are left to close. -/
theorem exists_leads_source (layout : Entry.Layout unit 0 entries lines)
    (written : WrittenIn source lines) :
    ∃ found opened, Leads unit source.toList [] found [] opened ∧
      Spells entries (found ++ List.replicate opened.length .outdent) := by
  cases entries with
  | nil =>
      rw [layout.lines_eq_nil] at written
      have empty : source.toList = [] := by simpa [WrittenIn] using written
      rw [empty]
      exact ⟨[], [], .refl, .nil⟩
  | cons entry rest =>
      rcases layout.exists_eq_cons (by simp) with ⟨entry, more, first⟩
      have top : ([] : List Nat).headD 0 = 0 := rfl
      have here := first
      rw [List.replicate_zero, List.nil_append] at here
      rcases source_eq_or here written with all | ⟨all, filled⟩
      · have ends : EndsLine ['\n'] := by simp [EndsLine]
        rcases exists_isRead layout first top ends with ⟨found, opened, blank, read⟩
        have starts : StartsLine [] := by simp [StartsLine]
        have last : Leads unit (unlines blank ++ '\n' :: (List.replicate 0 unit.character ++ []))
            (opened ++ []) (closing opened) [] [] :=
          leads_same read.blankLines starts read.deeper top
        refine ⟨found ++ closing opened, [], ?_, ?_⟩
        · rw [all]
          exact read.leads.trans (by simpa using last)
        · simpa using read.closed .nil
      · have ends : EndsLine [] := by simp [EndsLine]
        rcases exists_isRead layout first top ends with ⟨found, opened, blank, read⟩
        have noBlank : blank = [] := by
          rcases List.eq_nil_or_concat blank with none | ⟨front, last, rfl⟩
          · exact none
          · rcases read.suffix with ⟨before, rfl⟩
            exact absurd (read.blankLines last (by simp)) (filled last (by simp))
        refine ⟨found, opened, ?_, read.spelled⟩
        simpa [all, noBlank, unlines] using read.leads

theorem exists_tokenize_eq_of_runAll_eq {file : Option String} {events : Array Event}
    {last : Scanner}
    (ran : runAll [] { ({ file } : TokenOptions).scanner source with events := events } =
      .ok () last) :
    ∃ tokens eventsAfter, tokenize source { file } events = .ok tokens eventsAfter ∧
      tokens.toList.map Token.kind = last.found.reverse.map Token.kind := by
  refine ⟨last.tokens, last.events.push (.lexed last.found.length file), ?_, ?_⟩
  · unfold tokenize
    rw [ran]
  · simp [Scanner.tokens]

/-- A source in which entries are laid out is cut into tokens that spell them. -/
theorem exists_tokenize_eq (layout : Entry.Layout unit 0 entries lines)
    (written : WrittenIn source lines) (file : Option String) (events : Array Event) :
    ∃ tokens eventsAfter kinds, tokenize source { file } events = .ok tokens eventsAfter ∧
      tokens.toList.map Token.kind = kinds ++ [.eos] ∧ Spells entries kinds := by
  rcases exists_leads_source layout written with ⟨found, opened, leads, spelled⟩
  have shows : Scanner.Shows { ({ file } : TokenOptions).scanner source with events := events }
      unit source.toList [] [] :=
    shows_scanner _ events (noReturn_of_written layout.noReturn written)
      (noMark_of_written layout written) rfl
  rcases leads _ _ shows with ⟨next, reaches, shown⟩
  rcases exists_stepsTo_end shown with ⟨last, stepped, ended, kinds⟩
  have ran := Scanner.run_eq_of_reaches (reaches.tail stepped) ended (Nat.le_refl _)
  rcases exists_tokenize_eq_of_runAll_eq ran with ⟨tokens, eventsAfter, cut, found⟩
  exact ⟨tokens, eventsAfter, _, cut, found.trans kinds, spelled⟩

end

end Offside
