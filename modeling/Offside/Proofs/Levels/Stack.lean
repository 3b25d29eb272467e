import Offside.Proofs.Layout.Scanning
import Offside.Proofs.Nesting.Run
import Offside.Proofs.Position.Words

/-!
# The stack of levels

A scanner keeps the widths of the levels that are open, the innermost one first, and leaves out the
outermost level, whose width is zero. With this level in front of the others they form a stack. A
line is compared with the top of the stack, and what the offside rule says about the line is said
about the stack.
-/

namespace Offside

open Computing Scanner Text

/-! ### Levels -/

/-- The levels that are open, outermost first, when all but the outermost one are given. -/
def stackOf (levels : List Nat) : List Nat :=
  0 :: levels.reverse

/-- Close the entries that are deeper than `width`, as `closeLevels` does, when all entries of the
stack are given, the top first. There is no result when an entry is asked for that the stack does
not have. -/
def closeEntries? (width : Nat) : List Nat → Option (Except (Nat × Nat) (Nat × List Nat))
  | [] => some (.ok (0, []))
  | level :: entries =>
      if level ≤ width then
        some (.ok (0, level :: entries))
      else
        match entries with
        | [] => none
        | outer :: others =>
            if outer < width then
              some (.error (outer, level))
            else
              (closeEntries? width (outer :: others)).map fun result =>
                result.map fun (closed, rest) => (closed + 1, rest)

section

variable {width outer inner closed : Nat} {levels rest : List Nat}

@[simp]
theorem length_stackOf : (stackOf levels).length = levels.length + 1 := by
  simp [stackOf]

theorem stackOf_append (deeper levels : List Nat) :
    stackOf (deeper ++ levels) = stackOf levels ++ deeper.reverse := by
  simp [stackOf]

theorem exists_stackOf_eq (levels : List Nat) :
    ∃ below, stackOf levels = below ++ [levels.headD 0] := by
  cases levels with
  | nil => exact ⟨[], rfl⟩
  | cons level others => exact ⟨stackOf others, stackOf_append [level] others⟩

theorem getLast?_stackOf (levels : List Nat) :
    (stackOf levels).getLast? = some (levels.headD 0) := by
  rcases exists_stackOf_eq levels with ⟨below, stack⟩
  rw [stack, List.getLast?_concat]

theorem mem_stackOf_headD (levels : List Nat) : levels.headD 0 ∈ stackOf levels :=
  List.mem_of_getLast? (getLast?_stackOf levels)

/-- Levels are closed from the top of the stack. -/
theorem exists_append_of_closeLevels (found : closeLevels width levels = .ok (closed, rest)) :
    ∃ deeper, levels = deeper ++ rest ∧ deeper.length = closed := by
  induction levels generalizing closed with
  | nil =>
      cases found
      exact ⟨[], rfl, rfl⟩
  | cons level others ih =>
      unfold closeLevels at found
      split at found
      · cases found
        exact ⟨[], rfl, rfl⟩
      · split at found
        · cases found
        · cases further : closeLevels width others with
          | error between => simp [further, Except.map] at found
          | ok result =>
              simp only [further, Except.map, Except.ok.injEq, Prod.mk.injEq] at found
              rcases found with ⟨rfl, rfl⟩
              rcases ih further with ⟨deeper, parts, length⟩
              exact ⟨level :: deeper, by rw [parts, List.cons_append], by rw [← length]; rfl⟩

/-- The two widths of a fault are neighbours on the stack, and enclose the width of the line. -/
theorem exists_neighbours_of_closeLevels
    (found : closeLevels width levels = .error (outer, inner)) :
    (∃ below above, stackOf levels = below ++ outer :: inner :: above) ∧
      outer < width ∧ width < inner := by
  induction levels with
  | nil => cases found
  | cons level others ih =>
      unfold closeLevels at found
      split at found
      · cases found
      · next deeper =>
          split at found
          · next between =>
              cases found
              rcases exists_stackOf_eq others with ⟨below, stack⟩
              refine ⟨⟨below, [], ?_⟩, between, Nat.not_le.mp deeper⟩
              rw [← List.singleton_append, stackOf_append, stack]
              simp
          · cases further : closeLevels width others with
            | ok result => simp [further, Except.map] at found
            | error between =>
                simp only [further, Except.map, Except.error.injEq] at found
                subst found
                rcases ih further with ⟨⟨below, above, stack⟩, encloses⟩
                refine ⟨⟨below, above ++ [level], ?_⟩, encloses⟩
                rw [← List.singleton_append, stackOf_append, stack]
                simp

/-- No entry is asked for below the outermost level. -/
theorem closeEntries?_eq (width : Nat) (levels : List Nat) :
    closeEntries? width (levels ++ [0]) =
      some ((closeLevels width levels).map fun (closed, rest) => (closed, rest ++ [0])) := by
  induction levels with
  | nil => simp [closeEntries?, closeLevels, Except.map]
  | cons level others ih =>
      cases others with
      | nil =>
          simp only [List.cons_append, List.nil_append, closeEntries?, closeLevels, List.headD_nil]
          split
          · rfl
          · by_cases positive : 0 < width
            · simp [positive, Except.map]
            · simp [positive, Except.map]
      | cons outer others =>
          rw [List.cons_append, List.cons_append, closeEntries?, closeLevels]
          rw [List.cons_append] at ih
          split
          · rfl
          · rw [List.headD_cons]
            split
            · rfl
            · rw [ih]
              cases closeLevels width (outer :: others) <;> rfl

end

/-! ### The stack of a scanner -/

/-- Whether a token opens a level. -/
def TokenKind.isIndent : TokenKind → Bool
  | indent _ => true
  | _ => false

namespace Scanner

/-- The levels that are open, outermost first. -/
def stack (scanner : Scanner) : List Nat :=
  stackOf scanner.levels

/-- How many levels have been opened so far. -/
def indents (scanner : Scanner) : Nat :=
  scanner.kinds.countP TokenKind.isIndent

/-- How many levels have been closed so far. -/
def outdents (scanner : Scanner) : Nat :=
  scanner.kinds.count .outdent

/-- The stack begins with zero and strictly increases, and each of its entries but the first one
was opened and is not closed yet. -/
structure OnStack (scanner : Scanner) : Prop where
  increasing : scanner.stack.Pairwise (· < ·)
  balanced : scanner.stack.length + scanner.outdents = 1 + scanner.indents

/-- What the offside rule says about a line that is indented by `width`, when a step from a scanner
has this result. -/
structure OffsideRule (scanner : Scanner) (width : Nat)
    (result : EStateM.Result (Diagnostic TokenFault) Scanner Unit) : Prop where
  deeper : scanner.top < width → ∃ after, result = .ok () after ∧
    after.stack = scanner.stack ++ [width] ∧ after.kinds = scanner.kinds ++ [.indent width]
  level : width = scanner.top → ∃ after, result = .ok () after ∧
    after.stack = scanner.stack ∧ after.kinds = scanner.kinds ++ [.newline]
  back : width < scanner.top → width ∈ scanner.stack → ∃ after left, result = .ok () after ∧
    scanner.stack = after.stack ++ left ∧ after.stack.getLast? = some width ∧
      after.kinds = scanner.kinds ++ List.replicate left.length .outdent
  between : width < scanner.top → width ∉ scanner.stack → ∃ fault later below outer inner above,
    result = .error fault later ∧ fault.cause = .inconsistentIndentation outer inner ∧
      scanner.stack = below ++ outer :: inner :: above ∧ outer < width ∧ width < inner

variable {scanner next : Scanner} {width : Nat}

theorem getLast?_stack (scanner : Scanner) : scanner.stack.getLast? = some scanner.top :=
  getLast?_stackOf scanner.levels

/-- A width between two neighbours on the stack is not on it. -/
theorem OnStack.not_mem (onStack : scanner.OnStack) {below above : List Nat} {outer inner : Nat}
    (stack : scanner.stack = below ++ outer :: inner :: above) (more : outer < width)
    (less : width < inner) : width ∉ scanner.stack := by
  have increasing := onStack.increasing
  rw [stack, List.pairwise_append, List.pairwise_cons, List.pairwise_cons] at increasing
  rcases increasing with ⟨_, ⟨_, above, _⟩, below⟩
  intro found
  simp only [stack, List.mem_append, List.mem_cons] at found
  rcases found with under | same | same | higher
  · have lower : width < outer := below width under outer List.mem_cons_self
    omega
  · omega
  · omega
  · have lower : inner < width := above width higher
    omega

/-- The same levels are open, and as many were opened as were closed in between. -/
theorem OnStack.same (onStack : scanner.OnStack) (levels : next.levels = scanner.levels)
    (balanced : next.indents + scanner.outdents = scanner.indents + next.outdents) :
    next.OnStack := by
  have stack : next.stack = scanner.stack := congrArg stackOf levels
  refine ⟨stack ▸ onStack.increasing, ?_⟩
  have before := onStack.balanced
  rw [stack]
  omega

/-- A deeper level is opened. -/
theorem OnStack.opened (onStack : scanner.OnStack) (deeper : scanner.top < width)
    (levels : next.levels = width :: scanner.levels)
    (kinds : next.kinds = scanner.kinds ++ [.indent width]) : next.OnStack := by
  have stack : next.stack = scanner.stack ++ [width] := by
    rw [Scanner.stack, levels, ← List.singleton_append, stackOf_append]
    rfl
  constructor
  · rw [stack, List.pairwise_append]
    refine ⟨onStack.increasing, List.pairwise_singleton _ _, ?_⟩
    intro entry found other last
    rw [List.mem_singleton.mp last]
    have increasing := onStack.increasing
    rcases exists_stackOf_eq scanner.levels with ⟨below, parts⟩
    have whole : scanner.stack = below ++ [scanner.top] := parts
    rw [whole, List.pairwise_append] at increasing
    rw [whole, List.mem_append, List.mem_singleton] at found
    rcases found with under | rfl
    · exact (increasing.2.2 entry under _ (List.mem_singleton_self _)).trans deeper
    · exact deeper
  · have before := onStack.balanced
    have indents : next.indents = scanner.indents + 1 := by
      simp [Scanner.indents, kinds, TokenKind.isIndent]
    have outdents : next.outdents = scanner.outdents := by
      simp [Scanner.outdents, kinds]
    rw [stack, List.length_append, List.length_singleton]
    omega

/-- Levels are closed from the top of the stack. -/
theorem OnStack.closed (onStack : scanner.OnStack) {deeper : List Nat}
    (levels : scanner.levels = deeper ++ next.levels)
    (kinds : next.kinds = scanner.kinds ++ List.replicate deeper.length .outdent) :
    next.OnStack := by
  have stack : scanner.stack = next.stack ++ deeper.reverse := by
    rw [Scanner.stack, levels, stackOf_append]
    rfl
  have increasing := onStack.increasing
  have before := onStack.balanced
  rw [stack] at increasing before
  rw [List.length_append, List.length_reverse] at before
  refine ⟨(List.pairwise_append.mp increasing).1, ?_⟩
  have indents : next.indents = scanner.indents := by
    simp [Scanner.indents, kinds, TokenKind.isIndent, List.countP_replicate]
  have outdents : next.outdents = scanner.outdents + deeper.length := by
    simp [Scanner.outdents, kinds]
  omega

/-! ### Comparing a line with the stack -/

theorem exists_align_deeper (deeper : scanner.top < width) :
    ∃ after, scanner.align width = .ok after ∧ after.levels = width :: scanner.levels ∧
      after.kinds = scanner.kinds ++ [.indent width] := by
  unfold align
  rw [if_neg (Nat.not_lt.mpr (Nat.le_of_lt deeper)), if_pos deeper]
  exact ⟨_, rfl, rfl, kinds_push _ _ _⟩

theorem exists_align_level (level : width = scanner.top) :
    ∃ after, scanner.align width = .ok after ∧ after.levels = scanner.levels ∧
      after.kinds = scanner.kinds ++ [.newline] := by
  have notLess : ¬width < scanner.top := Nat.not_lt.mpr (Nat.le_of_eq level.symm)
  have notMore : ¬scanner.top < width := Nat.not_lt.mpr (Nat.le_of_eq level)
  unfold align
  rw [if_neg notLess, if_neg notMore]
  exact ⟨_, rfl, rfl, kinds_push _ _ _⟩

theorem exists_align_back {closed : Nat} {levels : List Nat} (less : width < scanner.top)
    (found : closeLevels width scanner.levels = .ok (closed, levels)) :
    ∃ after, scanner.align width = .ok after ∧ after.levels = levels ∧
      after.kinds = scanner.kinds ++ List.replicate closed .outdent := by
  unfold align
  rw [if_pos less, found]
  refine ⟨_, rfl, ?_⟩
  have leaves := leaves_foldl leaves_pushOutdent (List.replicate closed ())
    ({ scanner with levels := levels }.note (.outdented closed width))
  rw [List.length_replicate] at leaves
  exact ⟨leaves.levels, leaves.kinds⟩

theorem align_between {outer inner : Nat} (less : width < scanner.top)
    (found : closeLevels width scanner.levels = .error (outer, inner)) :
    scanner.align width = .error (scanner.fault (.inconsistentIndentation outer inner)) := by
  unfold align
  rw [if_pos less, found]

/-- A line comes back to the level that it is as wide as, or lies between two levels. -/
theorem closeLevels_cases (onStack : scanner.OnStack) (less : width < scanner.top) :
    (∃ closed levels deeper, closeLevels width scanner.levels = .ok (closed, levels) ∧
      scanner.levels = deeper ++ levels ∧ deeper.length = closed ∧ levels.headD 0 = width) ∨
    width ∉ scanner.stack ∧ ∃ outer inner below above,
      closeLevels width scanner.levels = .error (outer, inner) ∧
        scanner.stack = below ++ outer :: inner :: above ∧ outer < width ∧ width < inner := by
  cases found : closeLevels width scanner.levels with
  | ok result =>
      rcases result with ⟨closed, levels⟩
      rcases exists_append_of_closeLevels found with ⟨deeper, parts, length⟩
      have same := (width_of_closeLevels less found).2
      exact .inl ⟨closed, levels, deeper, rfl, parts, length, same⟩
  | error between =>
      rcases between with ⟨outer, inner⟩
      rcases exists_neighbours_of_closeLevels found with ⟨⟨below, above, stack⟩, more, less⟩
      have notOnIt := onStack.not_mem stack more less
      exact .inr ⟨notOnIt, outer, inner, below, above, rfl, stack, more, less⟩

theorem onStack_align (onStack : scanner.OnStack) (width : Nat) :
    Gives (scanner.align width) OnStack := by
  rintro after done
  rcases Nat.lt_trichotomy width scanner.top with less | level | deeper
  · rcases closeLevels_cases onStack less with
      ⟨closed, levels, deeper, closes, parts, rfl, _⟩ | ⟨_, outer, inner, _, _, closes, _⟩
    · rcases exists_align_back less closes with ⟨aligned, found, rfl, kinds⟩
      cases found.symm.trans done
      exact onStack.closed parts kinds
    · cases (align_between less closes).symm.trans done
  · rcases exists_align_level level with ⟨aligned, found, levels, kinds⟩
    cases found.symm.trans done
    refine onStack.same levels ?_
    simp [indents, outdents, kinds, TokenKind.isIndent]
  · rcases exists_align_deeper deeper with ⟨aligned, found, levels, kinds⟩
    cases found.symm.trans done
    exact onStack.opened deeper levels kinds

end Scanner

/-! ### The rule for a newline -/

section

variable {scanner measured : Scanner} {width : Nat}

theorem dropWhile_isIndentation_drop {text others : List Char} {unit : IndentUnit}
    (behind : text.drop (indentWidth unit text) = '\n' :: others) :
    text.dropWhile isIndentation = '\n' :: others := by
  have blanks : ∀ character ∈ text.takeWhile (· == unit.character),
      isIndentation character = true := by
    intro character found
    have same : character = unit.character := by simpa using List.mem_takeWhile_imp found
    cases unit <;> simp [same, IndentUnit.character, isIndentation]
  have parts : text.takeWhile (· == unit.character) ++ text.drop (indentWidth unit text) = text :=
    List.prefix_iff_eq_append.mp (List.takeWhile_prefix _)
  rw [← parts, behind, List.dropWhile_append_of_pos blanks]
  rfl

/-- What the rule does with a line that is not blank, and whose indentation is of one kind. -/
theorem Rule.indentation_eq_align (noBlank : blankLine scanner = none)
    (found : scanner.measure? = some (width, measured))
    (unmixed : ∀ next ∈ (scanner.unread.drop (width + 1)).head?, isIndentation next = false) :
    indentation scanner = ((measured.nextLine.drop (width + 1)).align width).map fun aligned =>
      some { aligned with markersAllowed := true } := by
  rcases exists_of_measure? found with ⟨rest, unit, unitAfter, unread, rfl, rfl⟩
  have noNewline : ∀ others, rest.drop (indentWidth unit rest) ≠ '\n' :: others := by
    intro others behind
    simp [blankLine, unread, dropWhile_isIndentation_drop behind] at noBlank
  rw [unread, List.drop_succ_cons] at unmixed
  unfold indentation
  rw [found]
  dsimp only [Scanner.drop, Scanner.nextLine]
  rw [unread, List.drop_succ_cons]
  split
  · next behind => simp [behind, isIndentation] at unmixed
  · next behind => simp [behind, isIndentation] at unmixed
  · next behind => exact absurd behind (noNewline _)
  · rfl

/-- Where a line ends, and no blank line follows, all rules before that for indentation decline. -/
theorem declines_of_measure? (noBlank : Rule.blankLine scanner = none)
    (found : scanner.measure? = some (width, measured)) :
    ∀ step ∈ Step.beforeIndentation, step.Declines scanner := by
  rcases exists_of_measure? found with ⟨rest, _, _, unread, _⟩
  have blank : Step.blank.Declines scanner := fun _ => by
    simp [Step.rule, SimpleRule.run, noBlank]
  exact declines_beforeIndentation unread (declines_endInterpolation_of_ne unread (by decide)) blank
    (passesWord_of_noWord rfl) rfl (by decide)

/-- A step behind a line that is not blank is a comparison of the next line with the stack. -/
theorem firstMatch_eq_align (inner : Scanning Unit) (noBlank : Rule.blankLine scanner = none)
    (found : scanner.measure? = some (width, measured))
    (unmixed : ∀ next ∈ (scanner.unread.drop (width + 1)).head?, isIndentation next = false) :
    firstMatch [] inner Step.order scanner =
      match (measured.nextLine.drop (width + 1)).align width with
      | .ok aligned => .ok () { aligned with markersAllowed := true }
      | .error fault => .error fault scanner := by
  have declines := declines_of_measure? noBlank found
  have rule := Rule.indentation_eq_align noBlank found unmixed
  rcases Step.exists_order_eq_indentation with ⟨others, order⟩
  rw [order]
  split
  · next aligned done =>
      apply firstMatch_of_forall_declines declines
      simp [Step.rule, CheckedRule.run, rule, done, Except.map]
  · next fault done =>
      rw [firstMatch_append_of_declines declines]
      have failed : Step.indentation.rule [] inner scanner = .error fault scanner := by
        simp [Step.rule, CheckedRule.run, rule, done, Except.map]
      exact bind_of_error failed

/-- So the levels that are open afterwards, and the tokens that are added, are those that the
offside rule asks for. -/
theorem offsideRule_firstMatch (onStack : scanner.OnStack) (inner : Scanning Unit)
    (noBlank : Rule.blankLine scanner = none) (found : scanner.measure? = some (width, measured))
    (unmixed : ∀ next ∈ (scanner.unread.drop (width + 1)).head?, isIndentation next = false) :
    scanner.OffsideRule width (firstMatch [] inner Step.order scanner) := by
  rw [firstMatch_eq_align inner noBlank found unmixed]
  rcases exists_of_measure? found with ⟨_, _, unitAfter, _, _, rfl⟩
  generalize moved : ({ scanner with unit := unitAfter } : Scanner).nextLine.drop (width + 1) = next
  have levels : next.levels = scanner.levels := moved ▸ rfl
  have kinds : next.kinds = scanner.kinds := moved ▸ rfl
  have top : next.top = scanner.top := congrArg (·.headD 0) levels
  constructor
  case deeper =>
    intro deeper
    rcases exists_align_deeper (top ▸ deeper) with ⟨aligned, done, opened, added⟩
    refine ⟨{ aligned with markersAllowed := true }, by rw [done], ?_, kinds ▸ added⟩
    show stackOf aligned.levels = _
    rw [opened, levels, ← List.singleton_append, stackOf_append]
    rfl
  case level =>
    intro level
    rcases exists_align_level (top ▸ level) with ⟨aligned, done, same, added⟩
    refine ⟨{ aligned with markersAllowed := true }, by rw [done], ?_, kinds ▸ added⟩
    exact congrArg stackOf (same.trans levels)
  case back =>
    intro less onIt
    rcases closeLevels_cases onStack less with
      ⟨closed, left, deeper, closes, parts, rfl, width⟩ | ⟨notOnIt, _⟩
    · rw [← levels] at closes
      rcases exists_align_back (top ▸ less) closes with ⟨aligned, done, remain, added⟩
      refine ⟨{ aligned with markersAllowed := true }, deeper.reverse, by rw [done], ?_, ?_, ?_⟩
      · show stackOf scanner.levels = stackOf aligned.levels ++ deeper.reverse
        rw [remain, parts, stackOf_append]
      · show (stackOf aligned.levels).getLast? = _
        rw [remain, getLast?_stackOf, width]
      · rw [List.length_reverse]
        exact kinds ▸ added
    · exact absurd onIt notOnIt
  case between =>
    intro less notOnIt
    rcases closeLevels_cases onStack less with
      ⟨closed, left, deeper, closes, parts, rfl, rfl⟩ |
      ⟨_, outer, inner, below, above, closes, encloses⟩
    · refine absurd ?_ notOnIt
      show left.headD 0 ∈ stackOf scanner.levels
      rw [parts, stackOf_append]
      exact List.mem_append_left _ (mem_stackOf_headD left)
    · rw [← levels] at closes
      have failed := align_between (top ▸ less) closes
      exact ⟨_, scanner, below, outer, inner, above, by rw [failed], rfl, encloses⟩

end

end Offside
