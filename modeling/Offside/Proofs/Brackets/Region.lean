import Offside.Proofs.Brackets.Scanning

/-!
# Bracketed regions

A region of a text ends at a closing bracket exactly if the text in front of it is balanced. Where
there is no region, the scan stopped at the first closing bracket that is not the expected one, or
it did not find any such bracket.
-/

namespace Offside.Bracket

variable {close expected found : Char} {stack text body rest front inside : List Char}

theorem scan_closing (closes : isClosing found = true) :
    scan close .code stack (found :: rest) =
      if found = stack.headD close then
        match stack with
        | [] => .closed [] rest
        | _ :: stack => (scan close .code stack rest).cons found
      else .mismatched [] (stack.headD close) found := by
  rcases not_isQuote_of_isClosing closes with ⟨noQuote, noOpening⟩
  have noSlash := ne_slash_of_isClosing closes
  have noQuote : ¬isQuote found = true := by simp [noQuote]
  cases stack with
  | nil =>
      rw [scan_end _ _ noQuote noOpening closes]
      · rfl
      all_goals simp [noSlash]
  | cons first others =>
      by_cases same : found = first
      · subst same
        rw [scan_expected _ _ noQuote noOpening closes]
        · simp
        all_goals simp [noSlash]
      · rw [scan_unexpected _ _ noQuote noOpening closes same]
        · simp [same]
        all_goals simp [noSlash]

/-! ### How the scan ends -/

theorem find_balanced (balanced : Balanced body) (closes : isClosing close = true) :
    find close (body ++ close :: rest) = .closed body rest := by
  rw [find, scan_balanced balanced (apart_of_isClosing closes), scan_closing closes]
  simp

theorem find_eq_closed_iff (closes : isClosing close = true) :
    find close text = .closed body rest ↔ text = body ++ close :: rest ∧ Balanced body := by
  constructor
  · intro closed
    have stops := stops_scan close .code [] text
    rw [← find, closed] at stops
    refine ⟨eq_append_of_find_eq_closed closed, ?_⟩
    cases Reaches.opened_of_nil stops with
    | balanced whole => exact whole
  · rintro ⟨rfl, balanced⟩
    exact find_balanced balanced closes

theorem find_eq_mismatched_iff :
    find close text = .mismatched body expected found ↔
      ∃ stack rest, text = body ++ found :: rest ∧ Opened stack body ∧ isClosing found = true ∧
        expected = stack.headD close ∧ found ≠ expected := by
  constructor
  · intro mismatched
    have stops := stops_scan close .code [] text
    rw [← find, mismatched] at stops
    rcases stops with ⟨closes, stack, reaches, isExpected, other⟩
    rcases exists_append_of_find_eq_mismatched mismatched with ⟨rest, cut⟩
    exact ⟨stack, rest, cut, reaches.opened_of_nil, closes, isExpected, other⟩
  · rintro ⟨stack, rest, rfl, opened, closes, rfl, other⟩
    rw [find, scan_opened opened (apart_of_isClosing closes), scan_closing closes, if_neg other]
    simp

/-- Nothing is found to be wrong until the text ends if each closing bracket belongs to the
innermost open one. -/
theorem find_eq_unclosed_iff (closes : isClosing close = true) :
    find close text = .unclosed ↔
      ∀ stack body found rest, text = body ++ found :: rest → Opened stack body →
        isClosing found = true → ∃ outer, stack = found :: outer := by
  constructor
  · rintro unclosed stack body found rest rfl opened isBracket
    by_cases other : found = stack.headD close
    · cases stack with
      | nil =>
          obtain rfl : found = close := other
          have closed : find found (body ++ found :: rest) = .closed body rest := by
            rw [find, scan_opened opened (apart_of_isClosing closes), scan_closing closes]
            simp
          simp [closed] at unclosed
      | cons first outer => exact ⟨outer, by simp_all⟩
    · have mismatched : find close (body ++ found :: rest) =
          .mismatched body (stack.headD close) found :=
        find_eq_mismatched_iff.mpr ⟨stack, rest, rfl, opened, isBracket, rfl, other⟩
      simp [mismatched] at unclosed
  · intro matching
    cases ends : find close text with
    | unclosed => rfl
    | closed body rest =>
        rcases (find_eq_closed_iff closes).mp ends with ⟨cut, balanced⟩
        rcases matching [] body close rest cut (.balanced balanced) closes with ⟨_, impossible⟩
        cases impossible
    | mismatched body expected found =>
        rcases find_eq_mismatched_iff.mp ends with
          ⟨stack, rest, cut, opened, isBracket, isExpected, other⟩
        rcases matching stack body found rest cut opened isBracket with ⟨outer, rfl⟩
        exact absurd isExpected.symm other

/-! ### Regions -/

theorem dropBytes_append (front inside : List Char) :
    dropBytes (byteLength front) (front ++ inside) = inside := by
  induction front with
  | nil => cases inside <;> rfl
  | cons character others ih =>
      have positive := character.utf8Size_pos
      rw [List.cons_append, byteLength, dropBytes, Nat.add_sub_cancel_left]
      · exact ih
      · omega

theorem eq_of_balanced {body' rest' : List Char} (closes : isClosing close = true)
    (same : body ++ close :: rest = body' ++ close :: rest') (balanced : Balanced body)
    (balanced' : Balanced body') : body = body' := by
  have found : find close (body ++ close :: rest) = .closed body rest :=
    find_balanced balanced closes
  rw [same, find_balanced balanced' closes, Outcome.closed.injEq] at found
  exact found.1.symm

section

variable (front inside : List Char) (close : Char)

/-- How a region relates to the scan from its first byte on. -/
def regionOf : Outcome → Except Fault Region
  | .closed body _ =>
      .ok ⟨byteLength front, byteLength front + byteLength body, String.ofList body⟩
  | .unclosed => .error (.unclosed (byteLength (front ++ inside)))
  | .mismatched body expected found =>
      .error (.mismatched (byteLength front + byteLength body) expected found)

theorem region_append :
    region (front ++ inside) (byteLength front) close =
      regionOf front inside (find close inside) := by
  unfold region
  rw [dropBytes_append]
  cases find close inside <;> rfl

theorem region_eq_ok_iff (closes : isClosing close = true) (found : Region) :
    region (front ++ inside) (byteLength front) close = .ok found ↔
      ∃ body rest, inside = body ++ close :: rest ∧ Balanced body ∧
        found = ⟨byteLength front, byteLength front + byteLength body, String.ofList body⟩ := by
  rw [region_append]
  constructor
  · intro isFound
    cases ends : find close inside with
    | closed body rest =>
        rcases (find_eq_closed_iff closes).mp ends with ⟨cut, balanced⟩
        rw [ends] at isFound
        cases isFound
        exact ⟨body, rest, cut, balanced, rfl⟩
    | unclosed | mismatched => simp [ends, regionOf] at isFound
  · rintro ⟨body, rest, rfl, balanced, rfl⟩
    rw [find_balanced balanced closes]
    rfl

theorem region_eq_mismatched_iff (index : Nat) (expected found : Char) :
    region (front ++ inside) (byteLength front) close =
        .error (.mismatched index expected found) ↔
      ∃ stack body rest, inside = body ++ found :: rest ∧ Opened stack body ∧
        isClosing found = true ∧ expected = stack.headD close ∧ found ≠ expected ∧
        index = byteLength front + byteLength body := by
  rw [region_append]
  constructor
  · intro isMismatched
    cases ends : find close inside with
    | mismatched body =>
        rw [ends] at isMismatched
        cases isMismatched
        rcases find_eq_mismatched_iff.mp ends with
          ⟨stack, rest, cut, opened, closes, isExpected, other⟩
        exact ⟨stack, body, rest, cut, opened, closes, isExpected, other, rfl⟩
    | unclosed | closed => simp [ends, regionOf] at isMismatched
  · rintro ⟨stack, body, rest, cut, opened, closes, isExpected, other, rfl⟩
    rw [find_eq_mismatched_iff.mpr ⟨stack, rest, cut, opened, closes, isExpected, other⟩]
    rfl

theorem region_eq_unclosed_iff (closes : isClosing close = true) (index : Nat) :
    region (front ++ inside) (byteLength front) close = .error (.unclosed index) ↔
      index = byteLength (front ++ inside) ∧
        ∀ stack body found rest, inside = body ++ found :: rest → Opened stack body →
          isClosing found = true → ∃ outer, stack = found :: outer := by
  rw [region_append, ← find_eq_unclosed_iff closes]
  constructor
  · intro isUnclosed
    cases ends : find close inside with
    | unclosed =>
        rw [ends] at isUnclosed
        cases isUnclosed
        exact ⟨rfl, rfl⟩
    | closed | mismatched => simp [ends, regionOf] at isUnclosed
  · rintro ⟨rfl, ends⟩
    rw [ends]
    rfl

/-- There is a region exactly if the text up to some `close` is balanced, and then there is only one
such text. Otherwise the first closing bracket that differs from the counterpart of the innermost
open one is reported, or the end of the text if there is none. -/
theorem region_iff_balanced (closes : isClosing close = true) :
    (∀ found, region (front ++ inside) (byteLength front) close = .ok found ↔
      ∃ body rest, inside = body ++ close :: rest ∧ Balanced body ∧
        found = ⟨byteLength front, byteLength front + byteLength body, String.ofList body⟩) ∧
    (∀ body rest body' rest', inside = body ++ close :: rest → Balanced body →
      inside = body' ++ close :: rest' → Balanced body' → body = body') ∧
    (∀ index expected found,
      region (front ++ inside) (byteLength front) close =
          .error (.mismatched index expected found) ↔
        ∃ stack body rest, inside = body ++ found :: rest ∧ Opened stack body ∧
          isClosing found = true ∧ expected = stack.headD close ∧ found ≠ expected ∧
          index = byteLength front + byteLength body) ∧
    ∀ index, region (front ++ inside) (byteLength front) close = .error (.unclosed index) ↔
      index = byteLength (front ++ inside) ∧
        ∀ stack body found rest, inside = body ++ found :: rest → Opened stack body →
          isClosing found = true → ∃ outer, stack = found :: outer := by
  refine ⟨region_eq_ok_iff front inside close closes, ?_,
    region_eq_mismatched_iff front inside close, region_eq_unclosed_iff front inside close closes⟩
  intro body rest body' rest' cut balanced cut' balanced'
  exact eq_of_balanced closes (cut ▸ cut') balanced balanced'

/-- In `(a [ } b)` the curly bracket is reported, since the square bracket is still open. -/
theorem region_mismatched_curly :
    isClosing ')' = true ∧
      region "(a [ \x7d b)".toList 1 ')' = .error (.mismatched 5 ']' '\x7d') := by
  have ends := (region_iff_balanced ['('] "a [ \x7d b)".toList ')' rfl).2.2.1 5 ']' '\x7d'
  refine ⟨rfl, ends.mpr ⟨[']'], "a [ ".toList, " b)".toList, rfl, ?_, rfl, rfl, by decide, rfl⟩⟩
  have front : Balanced ['a', ' '] :=
    Balanced.nil.plain ['a', ' '] (List.all_eq_true.mp (by decide))
  have inside : Balanced [' '] := Balanced.nil.plain [' '] (List.all_eq_true.mp (by decide))
  exact @Opened.bracket [] ['a', ' '] [' '] '[' ']' (.balanced front) rfl inside

end

end Offside.Bracket
