import Offside.Proofs.Layout.Lines

/-!
# The tokens of a layout

Whatever their layout, entries are spelled by the same tokens, apart from the widths of the
indentation. Behind a line some levels are open; only with the tokens that close them are the
entries spelled, and it is the next line, or the end of the text, that adds these.
-/

namespace Offside

open Computing Relation Text

/-- The tokens of the line of an element. -/
def Element.lineKinds (name : ElementName) (text : Option ElementText) : List TokenKind :=
  .tag name.value :: text.toList.map fun content => .text content.value

/-- The tokens of the line of an entry. -/
def Entry.lineKinds : Entry → List TokenKind
  | .element name text _ => Element.lineKinds name text
  | .inclusion path _ => [.inclusion, .path path.value]

/-- Some tokens spell some entries. A newline may stand behind the last one. -/
inductive Spells : List Entry → List TokenKind → Prop where
  | nil : Spells [] []
  | last {entry : Entry} (leaf : entry.children = []) : Spells [entry] entry.lineKinds
  | next {entry : Entry} {rest : List Entry} {kinds : List TokenKind}
      (leaf : entry.children = []) (following : Spells rest kinds) :
      Spells (entry :: rest) (entry.lineKinds ++ .newline :: kinds)
  | nested {entry : Entry} {rest : List Entry} {width : Nat}
      {kindsInside kinds : List TokenKind} (nonempty : entry.children ≠ [])
      (inside : Spells entry.children kindsInside) (following : Spells rest kinds) :
      Spells (entry :: rest)
        (entry.lineKinds ++ .indent width :: (kindsInside ++ .outdent :: kinds))

section

variable {unit : IndentUnit} {width : Nat} {entry : Entry} {entries : List Entry}
  {lines : List (List Char)} {after : List Char} {levels : List Nat}

theorem endsLine_unlines (lines : List (List Char)) (ends : EndsLine after) :
    EndsLine (unlines lines ++ after) := by
  cases lines with
  | nil => simpa [unlines] using ends
  | cons line rest => simp [unlines_cons, EndsLine]

theorem startsLine_line (entry : Entry) (rest : List Char) : StartsLine (entry.line ++ rest) := by
  cases entry with
  | element name text children =>
      rcases name.exists_eq_cons with ⟨first, more, chars⟩
      have isWordFirst : isWord first = true := name.isWord_of_mem (by simp [chars])
      intro next found
      have same : next = first := by
        cases text <;> simpa [Entry.line, Element.line, chars, eq_comm] using found
      subst same
      exact ⟨ne_of_isWord isWordFirst (by decide), ne_of_isWord isWordFirst (by decide),
        ne_of_isWord isWordFirst (by decide)⟩
  | inclusion path included =>
      intro next found
      have same : 'i' = next := Option.some.inj found
      subst same
      decide

theorem leads_elementLine (name : ElementName) (text : Option ElementText)
    (ends : EndsLine after) :
    Leads unit (Element.line name text ++ after) levels (Element.lineKinds name text) after
      levels := by
  cases text with
  | none => exact leads_name name ends.endsWord
  | some content =>
      have spaced : EndsWord (' ' :: content.value.toList ++ after) := by simp [EndsWord]
      have split : Element.line name (some content) ++ after =
          name.value.toList ++ (' ' :: content.value.toList ++ after) := by
        simp [Element.line]
      rw [split]
      exact (leads_name name spaced).trans (leads_text content ends)

theorem leads_line (entry : Entry) (ends : EndsLine after) :
    Leads unit (entry.line ++ after) levels entry.lineKinds after levels := by
  cases entry with
  | element name text children => exact leads_elementLine name text ends
  | inclusion path included => exact leads_inclusion path ends

theorem Entry.Layout.lines_eq_nil (layout : Entry.Layout unit width [] lines) : lines = [] := by
  cases layout
  rfl

/-- The first line of a layout is that of its first entry. -/
theorem Entry.Layout.exists_eq_cons (layout : Entry.Layout unit width entries lines)
    (nonempty : entries ≠ []) :
    ∃ (first : Entry) (more : List (List Char)),
      lines = (List.replicate width unit.character ++ first.line) :: more := by
  cases layout with
  | nil => exact absurd rfl nonempty
  | cons deeper blankLines inside following => exact ⟨_, _, rfl⟩

/-- The entries of a layout were read, up to some blank lines: the tokens that were found spell
them, once those are added that close the levels which are still open. -/
structure IsRead (unit : IndentUnit) (width : Nat) (entries : List Entry)
    (lines : List (List Char)) (text : List Char) (levels : List Nat) (after : List Char)
    (found : List TokenKind) (opened : List Nat) (blank : List (List Char)) : Prop where
  leads : Leads unit text levels found (unlines blank ++ after) (opened ++ levels)
  deeper : ∀ level ∈ opened, width < level
  blankLines : ∀ line ∈ blank, IsBlankLine line
  suffix : blank <:+ lines
  spelled : Spells entries (found ++ List.replicate opened.length .outdent)
  closed : ∀ {others kinds}, Spells others kinds →
    Spells (entries ++ others) (found ++ closing opened ++ kinds)

theorem isRead_leaf (leaf : entry.children = []) {blank : List (List Char)}
    (blankLines : ∀ line ∈ blank, IsBlankLine line) (ends : EndsLine after) :
    IsRead unit width [entry] ((List.replicate width unit.character ++ entry.line) :: blank)
      (entry.line ++ unlines blank ++ after) levels after entry.lineKinds [] blank where
  leads := by
    rw [List.append_assoc]
    exact leads_line entry (endsLine_unlines blank ends)
  deeper := by simp
  blankLines := blankLines
  suffix := List.suffix_cons _ _
  spelled := by simpa using Spells.last leaf
  closed following := by simpa [closing] using Spells.next leaf following

/-- Behind the end of a line, and blank lines below it, stands the first line of a block. -/
theorem leads_firstLine {step : Nat} {blank inside more : List (List Char)} {first : Entry}
    (blankLines : ∀ line ∈ blank, IsBlankLine line) (step_pos : 0 < step)
    (top : levels.headD 0 = width)
    (firstLine : inside = (List.replicate (width + step) unit.character ++ first.line) :: more) :
    Leads unit (unlines (blank ++ inside) ++ after) levels [.indent (width + step)]
      (first.line ++ unlines more ++ after) ((width + step) :: levels) := by
  have split : unlines (blank ++ inside) ++ after =
      unlines blank ++ '\n' :: (List.replicate (width + step) unit.character ++
        (first.line ++ unlines more ++ after)) := by
    simp [firstLine, unlines_append, unlines_cons]
  rw [split]
  apply leads_deeper blankLines
  · rw [List.append_assoc]
    exact startsLine_line first _
  · omega

theorem isRead_nested {step : Nat} {blank inside more blankInside : List (List Char)}
    {first : Entry} {found : List TokenKind} {opened : List Nat}
    (nonempty : entry.children ≠ []) (step_pos : 0 < step)
    (blankLines : ∀ line ∈ blank, IsBlankLine line)
    (firstLine : inside = (List.replicate (width + step) unit.character ++ first.line) :: more)
    (top : levels.headD 0 = width)
    (read : IsRead unit (width + step) entry.children inside
      (first.line ++ unlines more ++ after) ((width + step) :: levels) after found opened
      blankInside) :
    IsRead unit width [entry]
      ((List.replicate width unit.character ++ entry.line) :: (blank ++ inside))
      (entry.line ++ unlines (blank ++ inside) ++ after) levels after
      (entry.lineKinds ++ .indent (width + step) :: found) (opened ++ [width + step])
      blankInside where
  leads := by
    have ends : EndsLine (unlines (blank ++ inside) ++ after) := by
      cases blank <;> simp [firstLine, unlines_cons, EndsLine]
    have below := (leads_firstLine blankLines step_pos top firstLine).trans read.leads
    simpa using (leads_line entry ends).trans below
  deeper := by
    intro level mem
    rcases List.mem_append.mp mem with mem | mem
    · have levelDeeper := read.deeper level mem
      omega
    · have same := List.mem_singleton.mp mem
      omega
  blankLines := read.blankLines
  suffix := (read.suffix.trans (List.suffix_append blank inside)).trans (List.suffix_cons _ _)
  spelled := by
    have spelled : Spells [entry] (entry.lineKinds ++
        .indent (width + step) :: (found ++ List.replicate opened.length .outdent ++ [.outdent])) :=
      .nested nonempty read.spelled .nil
    simpa [List.replicate_succ'] using spelled
  closed {others kinds} following := by
    have spelled : Spells (entry :: others) (entry.lineKinds ++
        .indent (width + step) ::
          (found ++ List.replicate opened.length .outdent ++ .outdent :: kinds)) :=
      .nested nonempty read.spelled following
    simpa [closing, List.replicate_succ'] using spelled

/-- An entry was read, and then those that follow it on the same level. -/
theorem IsRead.cons {rest : List Entry} {first last : List (List Char)} {text : List Char}
    {found others : List TokenKind} {opened openedLast : List Nat}
    {blank blankLast more : List (List Char)} {next : Entry}
    (read : IsRead unit width [entry] first text levels (unlines last ++ after) found opened blank)
    (lastLine : last = (List.replicate width unit.character ++ next.line) :: more)
    (top : levels.headD 0 = width)
    (readLast : IsRead unit width rest last (next.line ++ unlines more ++ after) levels after
      others openedLast blankLast) :
    IsRead unit width (entry :: rest) (first ++ last) text levels after
      (found ++ closing opened ++ others) openedLast blankLast where
  leads := by
    have same : Leads unit (unlines blank ++ '\n' :: (List.replicate width unit.character ++
        (next.line ++ unlines more ++ after))) (opened ++ levels) (closing opened)
        (next.line ++ unlines more ++ after) levels := by
      apply leads_same read.blankLines
      · rw [List.append_assoc]
        exact startsLine_line next _
      · exact read.deeper
      · exact top
    have before := read.leads
    simp only [lastLine, unlines_cons, List.cons_append, List.append_assoc] at before
    simp only [List.append_assoc] at same
    simpa using (before.trans same).trans (by simpa using readLast.leads)
  deeper := readLast.deeper
  blankLines := readLast.blankLines
  suffix := readLast.suffix.trans (List.suffix_append first last)
  spelled := by simpa using read.closed readLast.spelled
  closed more := by simpa using read.closed (readLast.closed more)

/-- Every layout is read from the start of its first line, whatever follows it. -/
theorem exists_isRead (layout : Entry.Layout unit width entries lines) {start : List Char}
    {more : List (List Char)}
    (first : lines = (List.replicate width unit.character ++ start) :: more)
    (top : levels.headD 0 = width) (ends : EndsLine after) :
    ∃ found opened blank,
      IsRead unit width entries lines (start ++ unlines more ++ after) levels after found opened
        blank := by
  -- The entries inside an element are followed by what follows it, and the levels that they
  -- leave open are closed only there: so what comes after the lines stays general.
  induction layout generalizing start more levels after with
  | nil => cases first
  | @cons width step entry rest blank inside following deeper blankLines layoutInside
      layoutFollowing insideRead followingRead =>
      rcases List.cons.inj first with ⟨same, rfl⟩
      rcases List.append_cancel_left same with rfl
      have here : ∃ found opened blankAfter, IsRead unit width [entry]
          ((List.replicate width unit.character ++ entry.line) :: (blank ++ inside))
          (entry.line ++ unlines (blank ++ inside) ++ (unlines following ++ after))
          levels (unlines following ++ after) found opened blankAfter := by
        by_cases leaf : entry.children = []
        · rw [leaf] at layoutInside
          rw [layoutInside.lines_eq_nil, List.append_nil]
          exact ⟨_, _, _, isRead_leaf leaf blankLines (endsLine_unlines following ends)⟩
        · rcases layoutInside.exists_eq_cons leaf with ⟨first, more, line⟩
          have innerTop : ((width + step) :: levels).headD 0 = width + step := rfl
          rcases insideRead line innerTop (endsLine_unlines following ends)
            with ⟨found, opened, blankInside, read⟩
          exact ⟨_, _, _, isRead_nested leaf deeper blankLines line top read⟩
      rcases here with ⟨found, opened, blankAfter, read⟩
      cases rest with
      | nil =>
          rw [layoutFollowing.lines_eq_nil] at read ⊢
          exact ⟨found, opened, blankAfter, by simpa [unlines] using read⟩
      | cons next rest =>
          rcases layoutFollowing.exists_eq_cons (by simp) with ⟨next, others, line⟩
          rcases followingRead line top ends with ⟨foundLast, openedLast, blankLast, readLast⟩
          have all := read.cons line top readLast
          rw [List.cons_append] at all
          exact ⟨_, _, _, by simpa [unlines_append] using all⟩

end

end Offside
