import Offside.Proofs.Nesting.Words
import Offside.Text.Line

/-!
# Texts with one more blank line

Two texts have a front in common, and behind it one of them has one more line of blanks. What is
read of the line on which the front ends is the same, and so is how a bracket is closed: a line of
blanks changes nothing but the text in the brackets.
-/

namespace Offside

namespace Text

/-- A text that begins with a newline, or is empty: what can be behind the end of a line. -/
def AtLineEnd (rest : List Char) : Prop :=
  ∀ next ∈ rest.head?, next = '\n'

namespace AtLineEnd

theorem nil : AtLineEnd [] := by simp [AtLineEnd]

theorem newline (back : List Char) : AtLineEnd ('\n' :: back) := by simp [AtLineEnd]

section

variable {front rest : List Char} {condition : Char → Bool}

theorem takeWhile_append (ends : AtLineEnd rest) (stops : condition '\n' = false) :
    (front ++ rest).takeWhile condition = front.takeWhile condition := by
  induction front with
  | nil =>
      cases rest with
      | nil => rfl
      | cons next back =>
          obtain rfl := ends next rfl
          simp [stops]
  | cons character others ih =>
      rw [List.cons_append, List.takeWhile_cons, List.takeWhile_cons, ih]

theorem dropWhile_append (ends : AtLineEnd rest) (stops : condition '\n' = false) :
    (front ++ rest).dropWhile condition = front.dropWhile condition ++ rest := by
  induction front with
  | nil =>
      cases rest with
      | nil => rfl
      | cons next back =>
          obtain rfl := ends next rfl
          simp [stops]
  | cons character others ih =>
      rw [List.cons_append, List.dropWhile_cons, List.dropWhile_cons, ih]
      split <;> rfl

theorem firstLine_append (ends : AtLineEnd rest) : firstLine (front ++ rest) = firstLine front :=
  ends.takeWhile_append (by decide)

theorem after?_append (ends : AtLineEnd rest) {keyword : List Char} (oneLine : '\n' ∉ keyword) :
    after? keyword (front ++ rest) = (after? keyword front).map (· ++ rest) := by
  induction keyword generalizing front with
  | nil => simp [after?]
  | cons expected keyword ih =>
      rw [List.mem_cons, not_or] at oneLine
      cases front with
      | nil =>
          cases rest with
          | nil => rfl
          | cons next back =>
              obtain rfl := ends next rfl
              simp [after?, Ne.symm oneLine.1]
      | cons found others =>
          simp only [List.cons_append, after?]
          split
          · exact ih oneLine.2
          · rfl

end

end AtLineEnd

/-- What is behind two lines that end in the same way: nothing in both texts, or the same lines,
but with one line of blanks in front of them in the second text. -/
inductive Spaced : List Char → List Char → Prop where
  | nil : Spaced [] []
  | line (blanks back : List Char) (blank : ∀ character ∈ blanks, isIndentation character = true) :
      Spaced ('\n' :: back) ('\n' :: (blanks ++ '\n' :: back))

namespace Spaced

variable {rest rest' : List Char}

theorem left (spaced : Spaced rest rest') : AtLineEnd rest := by
  cases spaced with
  | nil => exact .nil
  | line => exact .newline _

theorem right (spaced : Spaced rest rest') : AtLineEnd rest' := by
  cases spaced with
  | nil => exact .nil
  | line => exact .newline _

/-- Behind a common front both texts begin with the same character. -/
theorem head?_append (spaced : Spaced rest rest') (front : List Char) :
    (front ++ rest').head? = (front ++ rest).head? := by
  cases front with
  | nil => cases spaced <;> rfl
  | cons => rfl

end Spaced

end Text

/-! ### Brackets -/

namespace Bracket

open Text

/-- How two scans for a bracket end in texts with a common front, when one line of blanks is behind
the front of the second text. Either the bracket is closed in the front, or both scans go over the
newline and end for the same reason. -/
inductive Outcome.Beside (rest rest' : List Char) : Outcome → Outcome → Prop where
  | inside (body front : List Char) :
      Beside rest rest' (.closed body (front ++ rest)) (.closed body (front ++ rest'))
  | across {body body' behind behind' : List Char} (newline : '\n' ∈ body) :
      Beside rest rest' (.closed body behind) (.closed body' behind')
  | unclosed : Beside rest rest' .unclosed .unclosed
  | mismatched (body body' : List Char) (expected found : Char) :
      Beside rest rest' (.mismatched body expected found) (.mismatched body' expected found)

namespace Outcome

variable {rest rest' : List Char} {outcome outcome' : Outcome}

/-- Behind the front nothing differs. -/
theorem Beside.refl (outcome : Outcome) : Beside [] [] outcome outcome := by
  cases outcome with
  | closed body behind =>
      have inside := @Beside.inside [] [] body behind
      rwa [List.append_nil] at inside
  | unclosed => exact .unclosed
  | mismatched => exact .mismatched _ _ _ _

theorem Beside.cons (beside : Beside rest rest' outcome outcome') (character : Char) :
    Beside rest rest' (outcome.cons character) (outcome'.cons character) := by
  cases beside with
  | inside body front => exact .inside (character :: body) front
  | across newline => exact .across (List.mem_cons_of_mem _ newline)
  | unclosed => exact .unclosed
  | mismatched => exact .mismatched _ _ _ _

/-- Scans that end in the same way, but for what is read before. -/
inductive SameEnd : Outcome → Outcome → Prop where
  | closed (body body' behind : List Char) : SameEnd (.closed body behind) (.closed body' behind)
  | unclosed : SameEnd .unclosed .unclosed
  | mismatched (body body' : List Char) (expected found : Char) :
      SameEnd (.mismatched body expected found) (.mismatched body' expected found)

theorem SameEnd.refl (outcome : Outcome) : SameEnd outcome outcome := by
  cases outcome with
  | closed => exact .closed _ _ _
  | unclosed => exact .unclosed
  | mismatched => exact .mismatched _ _ _ _

theorem SameEnd.cons (same : SameEnd outcome outcome') (character : Char) :
    SameEnd outcome (outcome'.cons character) := by
  cases same with
  | closed => exact .closed _ _ _
  | unclosed => exact .unclosed
  | mismatched => exact .mismatched _ _ _ _

theorem SameEnd.beside (same : SameEnd outcome outcome') :
    Beside rest rest' (outcome.cons '\n') (outcome'.cons '\n') := by
  cases same with
  | closed => exact .across (List.mem_cons_self ..)
  | unclosed => exact .unclosed
  | mismatched => exact .mismatched _ _ _ _

end Outcome

section

variable {close : Char} {context : Context} {stack back : List Char}

/-- The scan is in code, in a literal, or in a comment that does not end with its line. -/
def Context.Stays (context : Context) : Prop :=
  context ≠ .lineComment ∧ ∀ quote, context = .literal quote → isQuote quote = true

/-- White space makes no difference to what follows it. -/
theorem scan_separator (stays : context.Stays) {blank : Char} (separates : isSeparator blank = true)
    (text : List Char) :
    scan close context stack (blank :: text) = (scan close context stack text).cons blank := by
  have blanks : blank = ' ' ∨ blank = '\n' ∨ blank = '\t' := by
    simpa [isSeparator, or_assoc] using separates
  cases context with
  | lineComment => exact absurd rfl stays.1
  | blockComment | code => rcases blanks with rfl | rfl | rfl <;> rfl
  | literal quote =>
      have isQuoted := stays.2 quote rfl
      have other : blank ≠ quote := by
        rintro rfl
        rcases blanks with rfl | rfl | rfl <;> exact absurd isQuoted (by decide)
      have noEscape : blank ≠ '\\' := by
        rcases blanks with rfl | rfl | rfl <;> decide
      rw [scan.eq_def]
      simp [noEscape, other]

theorem sameEnd_scan_separators (stays : context.Stays) {blanks : List Char}
    (blank : ∀ character ∈ blanks, isSeparator character = true) :
    (scan close context stack back).SameEnd (scan close context stack (blanks ++ back)) := by
  induction blanks with
  | nil => exact .refl _
  | cons first others ih =>
      rw [List.forall_mem_cons] at blank
      rw [List.cons_append, scan_separator stays blank.1]
      exact (ih blank.2).cons first

theorem sameEnd_scan_line (stays : context.Stays) {blanks : List Char}
    (blank : ∀ character ∈ blanks, isIndentation character = true) :
    (scan close context stack back).SameEnd
      (scan close context stack (blanks ++ '\n' :: back)) := by
  have separates : ∀ character ∈ blanks ++ ['\n'], isSeparator character = true := by
    intro character inLine
    rw [List.mem_append, List.mem_singleton] at inLine
    rcases inLine with inBlanks | rfl
    · have blankHere := blank character inBlanks
      simp only [isIndentation, Bool.or_eq_true] at blankHere
      rcases blankHere with space | tab
      · simp [isSeparator, space]
      · simp [isSeparator, tab]
    · rfl
  have same := @sameEnd_scan_separators close context stack back stays _ separates
  rwa [List.append_assoc, List.singleton_append] at same

end

/-! In code a character counts for itself, unless a comment begins. -/

section

variable {close character : Char} {stack text : List Char}
  (noLine : ∀ others, character = '/' → text = '/' :: others → False)
  (noBlock : ∀ others, character = '/' → text = '*' :: others → False)

include noLine noBlock

theorem scan_quote (isQuoted : isQuote character = true) :
    scan close .code stack (character :: text) =
      (scan close (.literal character) stack text).cons character := by
  cases stack with
  | nil => rw [scan, if_pos isQuoted] <;> assumption
  | cons => rw [scan, if_pos isQuoted] <;> assumption

variable (noQuote : ¬isQuote character = true)

include noQuote

theorem scan_opening {counterpart : Char} (opens : closing character = some counterpart) :
    scan close .code stack (character :: text) =
      (scan close .code (counterpart :: stack) text).cons character := by
  cases stack with
  | nil => rw [scan, if_neg noQuote, opens] <;> assumption
  | cons => rw [scan, if_neg noQuote, opens] <;> assumption

variable (noOpening : closing character = none)

include noOpening

theorem scan_other (noClosing : ¬isClosing character = true) :
    scan close .code stack (character :: text) =
      (scan close .code stack text).cons character := by
  cases stack with
  | nil => rw [scan, if_neg noQuote, noOpening] <;> simp [noClosing] <;> assumption
  | cons => rw [scan, if_neg noQuote, noOpening] <;> simp [noClosing] <;> assumption

variable (closes : isClosing character = true)

include closes

theorem scan_expected :
    scan close .code (character :: stack) (character :: text) =
      (scan close .code stack text).cons character := by
  rw [scan, if_neg noQuote, noOpening] <;> simp [closes] <;> assumption

theorem scan_unexpected {expected : Char} (other : ¬character = expected) :
    scan close .code (expected :: stack) (character :: text) =
      .mismatched [] expected character := by
  rw [scan, if_neg noQuote, noOpening] <;> simp [closes, other] <;> assumption

theorem scan_end :
    scan close .code [] (character :: text) =
      if character = close then .closed [] text else .mismatched [] close character := by
  rw [scan, if_neg noQuote, noOpening] <;> simp [closes] <;> assumption

end

/-- A character and what follows it in a line do not begin with two given ones, whatever follows the
line. -/
theorem ne_of_line {first second character : Char} {text : List Char} (other : second ≠ '\n')
    (noPair : ∀ others, character = first → text = second :: others → False) (behind : List Char) :
    ∀ others, character = first → text ++ '\n' :: behind = second :: others → False := by
  intro others same pair
  cases text with
  | nil =>
      injection pair with newline
      exact other newline.symm
  | cons next line =>
      injection pair with sameNext
      exact noPair line same (congrArg (· :: line) sameNext)

section

variable {close : Char} {context : Context} {stack back : List Char}

/-- A line of blanks behind the front. -/
theorem beside_scan_line {blanks : List Char}
    (blank : ∀ character ∈ blanks, isIndentation character = true)
    (quotes : ∀ quote, context = .literal quote → isQuote quote = true) (front : List Char) :
    Outcome.Beside ('\n' :: back) ('\n' :: (blanks ++ '\n' :: back))
      (scan close context stack (front ++ '\n' :: back))
      (scan close context stack (front ++ '\n' :: (blanks ++ '\n' :: back))) := by
  have goes : ∀ {context next : Context} {stack nextStack : List Char} {character : Char}
      {line : List Char},
      (∀ behind, scan close context stack (character :: (line ++ '\n' :: behind)) =
        (scan close next nextStack (line ++ '\n' :: behind)).cons character) →
      Outcome.Beside ('\n' :: back) ('\n' :: (blanks ++ '\n' :: back))
        (scan close next nextStack (line ++ '\n' :: back))
        (scan close next nextStack (line ++ '\n' :: (blanks ++ '\n' :: back))) →
      Outcome.Beside ('\n' :: back) ('\n' :: (blanks ++ '\n' :: back))
        (scan close context stack (character :: line ++ '\n' :: back))
        (scan close context stack (character :: line ++ '\n' :: (blanks ++ '\n' :: back))) := by
    intro context next stack nextStack character line step ih
    rw [List.cons_append, List.cons_append, step, step]
    exact ih.cons character
  fun_induction scan close context stack front with
  | case1 context stack =>
      by_cases comment : context = .lineComment
      · subst comment
        have code : Context.code.Stays := ⟨by simp, by simp⟩
        exact (sameEnd_scan_line code blank).beside
      · have stays : context.Stays := ⟨comment, quotes⟩
        rw [List.nil_append, List.nil_append, scan_separator stays rfl, scan_separator stays rfl]
        exact (sameEnd_scan_line stays blank).beside
  | case2 quote stack =>
      have stays : (Context.literal quote).Stays := ⟨by simp, quotes⟩
      exact (sameEnd_scan_line stays blank).beside.cons '\\'
  | case3 _ _ _ _ ih => exact ((ih quotes).cons _).cons _
  | case8 _ _ ih | case10 _ _ ih | case11 _ _ ih => exact ((ih (by simp)).cons _).cons _
  | case4 _ _ _ noEscape ih =>
      exact goes (fun _ => by rw [scan.eq_def]; simp [noEscape]) (ih (by simp))
  | case5 _ _ _ _ noEscape other ih =>
      exact goes (fun _ => by rw [scan.eq_def]; simp [noEscape, other]) (ih quotes)
  | case6 _ _ ih => exact goes (fun _ => rfl) (ih (by simp))
  | case7 _ _ _ other ih =>
      exact goes (fun _ => by rw [scan.eq_def]; simp [other]) (ih (by simp))
  | case9 _ _ _ noEnd ih =>
      refine goes (fun behind => ?_) (ih (by simp))
      rw [scan]
      exact ne_of_line (by decide) noEnd behind
  | case12 _ _ _ noLine noBlock isQuoted ih =>
      refine goes (fun behind => scan_quote (ne_of_line (by decide) noLine behind)
        (ne_of_line (by decide) noBlock behind) isQuoted) (ih ?_)
      rintro _ ⟨⟩
      exact isQuoted
  | case13 _ _ _ noLine noBlock noQuote _ opens ih =>
      exact goes (fun behind => scan_opening (ne_of_line (by decide) noLine behind)
        (ne_of_line (by decide) noBlock behind) noQuote opens) (ih (by simp))
  | case14 line noLine noBlock noQuote noOpening closes =>
      have ends := fun behind => @scan_end close _ _ (ne_of_line (by decide) noLine behind)
        (ne_of_line (by decide) noBlock behind) noQuote noOpening closes
      rw [List.cons_append, List.cons_append, ends, ends, if_pos rfl, if_pos rfl]
      exact .inside [] line
  | case15 _ _ noLine noBlock noQuote noOpening closes other =>
      have ends := fun behind => @scan_end close _ _ (ne_of_line (by decide) noLine behind)
        (ne_of_line (by decide) noBlock behind) noQuote noOpening closes
      rw [List.cons_append, List.cons_append, ends, ends, if_neg other, if_neg other]
      exact .mismatched _ _ _ _
  | case16 _ _ _ noLine noBlock noQuote noOpening closes ih =>
      exact goes (fun behind => scan_expected (ne_of_line (by decide) noLine behind)
        (ne_of_line (by decide) noBlock behind) noQuote noOpening closes) (ih (by simp))
  | case17 _ _ noLine noBlock noQuote noOpening closes _ stack other =>
      have ends := fun behind => @scan_unexpected close _ stack _
        (ne_of_line (by decide) noLine behind) (ne_of_line (by decide) noBlock behind) noQuote
        noOpening closes _ other
      rw [List.cons_append, List.cons_append, ends, ends]
      exact .mismatched _ _ _ _
  | case18 _ _ _ noLine noBlock noQuote noOpening noClosing ih =>
      exact goes (fun behind => scan_other (ne_of_line (by decide) noLine behind)
        (ne_of_line (by decide) noBlock behind) noQuote noOpening noClosing) (ih (by simp))

theorem beside_find {rest rest' : List Char} (spaced : Spaced rest rest') (close : Char)
    (front : List Char) :
    Outcome.Beside rest rest' (find close (front ++ rest)) (find close (front ++ rest')) := by
  cases spaced with
  | nil => exact .refl _
  | line blanks back blank => exact beside_scan_line blank (by simp) front

end

end Bracket

end Offside
