import Offside.Proofs.Nesting.Text
import Offside.Proofs.TextBlock.Reading

/-!
# The texts of a block

The texts of the lines that a block takes are read one after another. Between two of them stands a
newline token and, but for the position, nothing else changes. A text without an interpolation is
one token. Outside of interpolated tags a text leaves nothing unread, whatever it interpolates.
-/

namespace Offside

open Computing Scanner

/-- Texts are read one after another, each as a run of text. Some tokens stand in front of the first
text, and a newline in front of each other one. -/
inductive ReadsTexts (inner : Scanning Unit) : (front : List TokenKind) → List (List Char) →
    Scanner → EStateM.Result (Diagnostic TokenFault) Scanner Unit → Prop where
  | nil {front : List TokenKind} {scanner : Scanner} :
      ReadsTexts inner front [] scanner (.ok () scanner)
  | cons {front : List TokenKind} {text : List Char} {texts : List (List Char)}
      {scanner placed after : Scanner}
      {result : EStateM.Result (Diagnostic TokenFault) Scanner Unit}
      (places : scanner.Collects front placed)
      (reads : addRun inner false text placed = .ok () after)
      (following : ReadsTexts inner [.newline] texts after result) :
      ReadsTexts inner front (text :: texts) scanner result
  | fault {front : List TokenKind} {text : List Char} {texts : List (List Char)}
      {scanner placed stopped : Scanner} {fault : Diagnostic TokenFault}
      (places : scanner.Collects front placed)
      (fails : addRun inner false text placed = .error fault stopped) :
      ReadsTexts inner front (text :: texts) scanner (.error fault stopped)

/-- The tokens of texts without interpolations. -/
def textKinds (texts : List (List Char)) : List TokenKind :=
  (texts.map fun text => .text (String.ofList text)).intersperse .newline

section

variable {inner : Scanning Unit} {scanner : Scanner} {front : List TokenKind}
  {texts : List (List Char)} {result : EStateM.Result (Diagnostic TokenFault) Scanner Unit}

theorem readsTexts_addLines (inner : Scanning Unit) (width : Nat) (first : Bool)
    (block : List BlockLine) (scanner : Scanner) :
    ReadsTexts inner (if first then [] else [.newline]) (block.map BlockLine.text) scanner
      (addLines inner width first block scanner) := by
  induction block generalizing first scanner with
  | nil => exact .nil
  | cons line rest ih =>
      have places : ∃ placed, scanner.Collects (if first then [] else [.newline]) placed ∧
          addLines inner width first (line :: rest) scanner =
            (do
              addRun inner false line.text
              addLines inner width false rest) placed := by
        refine ⟨_, ?_, rfl⟩
        cases line.indented <;> cases first
        all_goals
          refine ⟨?_, rfl, rfl, rfl, rfl, rfl, rfl⟩
          simp [Scanner.kinds, Scanner.push, Scanner.nextLine, Scanner.right]
      rcases places with ⟨placed, collects, placing⟩
      rw [placing]
      cases read : addRun inner false line.text placed with
      | ok _ after =>
          rw [bind_of_ok read]
          exact .cons collects read (ih false after)
      | error fault stopped =>
          rw [bind_of_error read]
          exact .fault collects read

/-! ### Texts without interpolations -/

theorem addRun_eq_of_plain {text : List Char}
    (plain : findMarker scanner.interpolated scanner.markersAllowed text = none) :
    addRun inner false text scanner = .ok () (scanner.pushText false text 0) := by
  refine get_bind_eq.trans ?_
  rw [plain]
  rfl

theorem ReadsTexts.exists_collects (reads : ReadsTexts inner front texts scanner result)
    (plain : ∀ text ∈ texts, findMarker scanner.interpolated scanner.markersAllowed text = none)
    (someText : texts ≠ []) :
    ∃ after, result = .ok () after ∧ scanner.Collects (front ++ textKinds texts) after := by
  induction reads with
  | nil => exact absurd rfl someText
  | @cons front text texts scanner placed after result places reads following ih =>
      rcases List.forall_mem_cons.mp plain with ⟨plainText, plainTexts⟩
      rw [← places.interpolated, ← places.allowed] at plainText plainTexts
      rw [addRun_eq_of_plain plainText] at reads
      cases reads
      have read := places.trans (placed.collects_pushText text 0)
      cases texts with
      | nil =>
          cases following
          exact ⟨_, rfl, read⟩
      | cons next others =>
          rcases ih plainTexts (List.cons_ne_nil _ _) with ⟨last, same, collects⟩
          refine ⟨last, same, ?_⟩
          simpa [textKinds] using read.trans collects
  | fault places fails =>
      rcases List.forall_mem_cons.mp plain with ⟨plainText, -⟩
      rw [← places.interpolated, ← places.allowed] at plainText
      rw [addRun_eq_of_plain plainText] at fails
      cases fails

/-! ### Texts with interpolations -/

theorem ensures_collects_interpolated (inner : Scanning Unit) (body : List Char) :
    Ensures (interpolated inner body) scanner fun _ after =>
      ∃ kinds, scanner.Collects kinds after := by
  intro rest after done
  unfold interpolated at done
  extract_lets opened at done
  split at done
  · cases done
  · next child read =>
      cases done
      refine ⟨.startInterpolation :: (child.kinds ++ [.endInterpolation]),
        ?_, rfl, rfl, rfl, rfl, rfl, rfl⟩
      simp [opened, Scanner.kinds, Scanner.push, Scanner.right]

theorem exists_collects_of_pushCode {next : Scanner} {sigil : Char} {text rest : List Char}
    (coded : scanner.pushCode sigil text = .ok (next, rest)) :
    ∃ kinds, scanner.Collects kinds next := by
  unfold Scanner.pushCode at coded
  split at coded
  · cases coded
  · cases coded
  · cases coded
    exact ⟨_, collects_push ..⟩

theorem ensures_collects_addText (inner : Scanning Unit) (html : Bool) {budget escaped : Nat}
    {value held : List Char} (outside : scanner.interpolated = false) :
    Ensures (addText inner html budget value held escaped) scanner fun _ after =>
      ∃ kinds, scanner.Collects kinds after := by
  induction budget generalizing value held escaped scanner with
  | zero => exact .pure ⟨[], .refl⟩
  | succ budget ih =>
      have further {middle : Scanner} {kinds : List TokenKind} {value held : List Char}
          {escaped : Nat} (collects : scanner.Collects kinds middle) :
          Ensures (addText inner html budget value held escaped) middle fun _ after =>
            ∃ kinds, scanner.Collects kinds after := by
        refine (ih (collects.interpolated.trans outside)).mono ?_
        rintro _ after ⟨_, more⟩
        exact ⟨_, collects.trans more⟩
      refine .get_bind ?_
      cases found : findMarker scanner.interpolated scanner.markersAllowed value with
      | none => exact .set ⟨_, collects_push ..⟩
      | some parts =>
          rcases parts with ⟨before, marker, rest⟩
          have pushed : ∃ kinds,
              scanner.Collects kinds (scanner.pushText html (held ++ before) escaped) :=
            ⟨_, collects_push ..⟩
          rcases pushed with ⟨_, pushed⟩
          cases marker with
          | escapedTag | escapedCode => exact further .refl
          | tag =>
              refine .set_bind ((ensures_collects_interpolated inner rest).bind ?_)
              rintro behind middle ⟨_, added⟩
              exact further (pushed.trans added)
          | code sigil =>
              dsimp only
              split
              · exact .throw
              · next coded =>
                  rcases exists_collects_of_pushCode coded with ⟨_, added⟩
                  exact .set_bind (further (pushed.trans added))
          | close =>
              have inside := (suffix_of_findMarker found).2 rfl
              rw [outside] at inside
              cases inside

theorem ReadsTexts.exists_collects_of_ok {after : Scanner}
    (reads : ReadsTexts inner front texts scanner (.ok () after))
    (outside : scanner.interpolated = false) : ∃ kinds, scanner.Collects kinds after := by
  generalize isResult : (.ok () after : EStateM.Result (Diagnostic TokenFault) Scanner Unit) =
    result at reads
  induction reads with
  | nil =>
      cases isResult
      exact ⟨[], .refl⟩
  | cons places reads following ih =>
      have placedOutside := places.interpolated.trans outside
      rcases ensures_collects_addText inner false placedOutside () _ reads with ⟨_, read⟩
      rcases ih (read.interpolated.trans placedOutside) isResult with ⟨_, others⟩
      exact ⟨_, places.trans (read.trans others)⟩
  | fault => cases isResult

end

end Offside
