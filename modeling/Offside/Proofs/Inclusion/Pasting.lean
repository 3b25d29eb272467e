import Offside.Proofs.Inclusion.Entries

/-!
# Including is pasting

Where a template of elements includes another one, the lines of the included file might as well
stand in place of the include, indented like it. Both templates become the same page.
-/

namespace Offside

open Computing

/-- A line that is indented further. -/
def indented (unit : IndentUnit) (width : Nat) (line : List Char) : List Char :=
  List.replicate width unit.character ++ line

/-- Some lines of a file, at one width, are those of elements with includes among them, and become
others when each include is replaced by the lines of its file. These are pasted into themselves
first, at the width zero and in a file that is nested one level deeper, and are then indented to
the width of the include. -/
inductive Pastes (options : PageOptions) (read : Reader) (unit : IndentUnit) :
    (depth : Nat) → (file : Option String) → (width : Nat) →
      (lines pasted : List (List Char)) → Prop where
  | nil {depth : Nat} {file : Option String} {width : Nat} :
      Pastes options read unit depth file width [] []
  | element {depth : Nat} {file : Option String} {width step : Nat} (name : ElementName)
      (text : Option ElementText) {blank inside pastedInside after pastedAfter : List (List Char)}
      (deeper : 0 < step) (blankLines : ∀ line ∈ blank, IsBlankLine line)
      (pastesInside : Pastes options read unit depth file (width + step) inside pastedInside)
      (pastesAfter : Pastes options read unit depth file width after pastedAfter) :
      Pastes options read unit depth file width
        (indented unit width (Element.line name text) :: (blank ++ inside ++ after))
        (indented unit width (Element.line name text) :: (blank ++ pastedInside ++ pastedAfter))
  | inclusion {depth : Nat} {file : Option String} {width : Nat} (path : TemplatePath)
      {full : String} {bytes : List UInt8} {included pasted after pastedAfter : List (List Char)}
      (found : resolvePath options.baseDirectory path.value file = .ok full)
      (readable : read full = .ok bytes) (written : WrittenIn (Text.decodeLossy bytes) included)
      (pastesIncluded : Pastes options read unit depth (some full) 0 included pasted)
      (pastesAfter : Pastes options read unit (depth + 1) file width after pastedAfter) :
      Pastes options read unit (depth + 1) file width (indented unit width path.line :: after)
        (pasted.map (indented unit width) ++ pastedAfter)

section

variable {unit : IndentUnit} {width : Nat} {forest others : List Element}
  {lines more : List (List Char)}

theorem Layout.append (layout : Layout unit width forest lines)
    (following : Layout unit width others more) :
    Layout unit width (forest ++ others) (lines ++ more) := by
  induction layout with
  | nil => exact following
  | cons deeper blankLines inside _ _ followed =>
      rw [List.cons_append, List.cons_append, List.append_assoc]
      exact .cons deeper blankLines inside (followed following)

theorem isBlankLine_indented {line : List Char} (blank : IsBlankLine line) :
    IsBlankLine (indented unit width line) := by
  intro character mem
  rcases List.mem_append.mp mem with mem | mem
  · rw [List.eq_of_mem_replicate mem]
    cases unit <;> rfl
  · exact blank character mem

theorem indented_indented (outer : Nat) (line : List Char) :
    indented unit outer (indented unit width line) = indented unit (outer + width) line := by
  simp only [indented, ← List.append_assoc, List.replicate_append_replicate]

/-- A layout may be indented as a whole. -/
theorem Layout.indented (outer : Nat) (layout : Layout unit width forest lines) :
    Layout unit (outer + width) forest (lines.map (indented unit outer)) := by
  induction layout with
  | nil => exact .nil
  | @cons width step name text children rest blank inside after deeper blankLines _ _ laidOutInside
      laidOutAfter =>
      have blankIndented : ∀ line ∈ blank.map (Offside.indented unit outer), IsBlankLine line := by
        intro line mem
        rcases List.mem_map.mp mem with ⟨original, isBlank, rfl⟩
        exact isBlankLine_indented (blankLines original isBlank)
      have first : Offside.indented unit outer
          (List.replicate width unit.character ++ Element.line name text) =
          List.replicate (outer + width) unit.character ++ Element.line name text :=
        indented_indented outer _
      rw [List.map_cons, List.map_append, List.map_append, first]
      rw [← Nat.add_assoc] at laidOutInside
      exact .cons deeper blankIndented laidOutInside laidOutAfter

end

/-- Lines with includes are those of some entries, whose files are available, and the pasted lines
are those of the elements that the entries stand for. -/
theorem Pastes.exists_entries {options : PageOptions} {read : Reader} {unit : IndentUnit}
    {depth : Nat} {file : Option String} {width : Nat} {lines pasted : List (List Char)}
    (pastes : Pastes options read unit depth file width lines pasted) :
    ∃ entries, Entry.Layout unit width entries lines ∧
      Entry.Available (options.loading read) depth file entries ∧
        Layout unit width (Entry.expandAll entries) pasted := by
  induction pastes with
  | nil => exact ⟨[], .nil, .nil, .nil⟩
  | element name text deeper blankLines _ _ entriesInside entriesAfter =>
      rcases entriesInside with ⟨children, layoutInside, availableInside, pastedInside⟩
      rcases entriesAfter with ⟨rest, layoutAfter, availableAfter, pastedAfter⟩
      refine ⟨.element name text children :: rest, ?_, .element availableInside availableAfter, ?_⟩
      · exact .cons deeper blankLines layoutInside layoutAfter
      · exact .cons deeper blankLines pastedInside pastedAfter
  | @inclusion _ _ width path _ _ _ _ _ _ found readable written _ _ entriesIncluded
      entriesAfter =>
      rcases entriesIncluded with ⟨included, layoutIncluded, availableIncluded, pastedIncluded⟩
      rcases entriesAfter with ⟨rest, layoutAfter, availableAfter, pastedAfter⟩
      have noBlank : ∀ line ∈ [], IsBlankLine line := by simp
      have noChildren : Entry.Layout unit (width + 1) (Entry.inclusion path included).children [] :=
        .nil
      refine ⟨.inclusion path included :: rest, ?_, ?_, ?_⟩
      · exact .cons Nat.one_pos noBlank noChildren layoutAfter
      · exact .inclusion found readable layoutIncluded written availableIncluded availableAfter
      · exact (pastedIncluded.indented width).append pastedAfter

section

variable (options : PageOptions) (read : Reader) (file wholeFile : Option String)
  (events wholeEvents : Array Event) {unit : IndentUnit} {lines pasted : List (List Char)}
  {source whole : String}

/-- Including is pasting: a template of elements that includes other such templates, directly and
through each other, becomes the same page as the one template in which the lines of each included
file stand in place of the include. -/
theorem exists_page_of_pastes
    (pastes : Pastes options read unit options.maxIncludeDepth file 0 lines pasted)
    (written : WrittenIn source lines) (wholeWritten : WrittenIn whole pasted) :
    ∃ page, outcome (renderText options read file source events) = .ok page ∧
      outcome (renderText options read wholeFile whole wholeEvents) = .ok page := by
  rcases pastes.exists_entries with ⟨entries, layout, available, layoutPasted⟩
  rcases exists_ofSource_eq wholeFile wholeEvents layoutPasted wholeWritten
    with ⟨document, parsed, ofSource, stands⟩
  exact ⟨_, outcome_renderText_of_available options read file events layout written available,
    outcome_renderText_of_finished options read wholeFile wholeEvents ofSource stands.finished
      (exists_render_eq stands options.rendering)⟩

end

/-- A file of list items, and one that it includes. -/
def listFiles : Reader
  | "items.pg" => .ok (Text.encode "li one\nli\n  include em.pg\n")
  | "em.pg" => .ok (Text.encode "em two")
  | _ => .error "no such file"

theorem exists_page_of_pastes_list :
    ∃ page, outcome (renderText {} listFiles (some "page.pg")
        "ul\n  include items.pg\nul" #[]) = .ok page ∧
      outcome (renderText {} listFiles none "ul\n  li one\n  li\n    em two\nul" #[]) =
        .ok page := by
  let ul : ElementName :=
    ⟨"ul", ⟨'u', ['l'], by decide, by decide, List.all_eq_true.mp (by decide)⟩, by decide,
      by decide⟩
  let li : ElementName :=
    ⟨"li", ⟨'l', ['i'], by decide, by decide, List.all_eq_true.mp (by decide)⟩, by decide,
      by decide⟩
  let em : ElementName :=
    ⟨"em", ⟨'e', ['m'], by decide, by decide, List.all_eq_true.mp (by decide)⟩, by decide,
      by decide⟩
  let one : ElementText := ⟨"one", by decide, by decide, by decide, by decide⟩
  let two : ElementText := ⟨"two", by decide, by decide, by decide, by decide⟩
  let items : TemplatePath := ⟨"items.pg", by decide, by decide, by decide, by decide⟩
  let inner : TemplatePath := ⟨"em.pg", by decide, by decide, by decide, by decide⟩
  have noBlank : ∀ line ∈ [], IsBlankLine line := by simp
  have foundItems : resolvePath none "items.pg" (some "page.pg") = .ok "items.pg" :=
    congrArg Except.ok (String.toList_inj.mp (by decide))
  have foundInner : resolvePath none "em.pg" (some "items.pg") = .ok "em.pg" :=
    congrArg Except.ok (String.toList_inj.mp (by decide))
  have ofInner : Pastes {} listFiles .space 62 (some "em.pg") 0 _ _ :=
    .element em (some two) Nat.one_pos noBlank .nil .nil
  have filled : ∀ line ∈ [indented .space 0 (Element.line em (some two))].getLast?,
      ¬IsBlankLine line := by
    simp [em, two, indented, Element.line, IsBlankLine, Text.isIndentation]
  have ofInclude : Pastes {} listFiles .space 63 (some "items.pg") 2 _ _ :=
    .inclusion inner foundInner rfl (.inr ⟨by decide +kernel, filled⟩) ofInner .nil
  have ofItems : Pastes {} listFiles .space 63 (some "items.pg") 0 _ _ :=
    .element li (some one) Nat.one_pos noBlank .nil
      (.element li none Nat.two_pos noBlank ofInclude .nil)
  have ofList : Pastes {} listFiles .space 64 (some "page.pg") 2 _ _ :=
    .inclusion items foundItems rfl (.inl (by decide +kernel)) ofItems .nil
  have ofPage : Pastes {} listFiles .space 64 (some "page.pg") 0 _ _ :=
    .element ul none Nat.two_pos noBlank ofList (.element ul none Nat.one_pos noBlank .nil .nil)
  refine exists_page_of_pastes {} listFiles (some "page.pg") none #[] #[] ofPage
    (.inr ⟨by decide +kernel, ?_⟩) (.inr ⟨by decide +kernel, ?_⟩)
  · simp [ul, indented, Element.line, IsBlankLine, Text.isIndentation]
  · simp [ul, indented, Element.line, IsBlankLine, Text.isIndentation]

end Offside
