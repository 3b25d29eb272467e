import Offside.Proofs.Parallel
import Offside.Proofs.Provenance.Run
import Offside.Proofs.Translation.Rules

/-!
# Runs of text and text blocks in a text that starts at another position

An interpolated tag gives its column to the text behind it. It ends on the line on which it began,
so that the column is moved if and only if that of the text is.
-/

namespace Offside

open Computing Scanner Text

variable {start : Position}

/-! ### Computations on a scanner -/

/-- In a text that starts at a position the other computation does there what the first one does in
the text as it is. -/
def Scanning.GoesAlong {α : Type} (start : Position) (action other : Scanning α) : Prop :=
  Parallel (fun scanner moved => moved = scanner.movedTo start) (fun value value' => value' = value)
    (fun fault moved => moved = fault.movedTo start) action other

/-- In a text that starts at a position the computation does the same there. -/
def Scanning.MovesTo {α : Type} (start : Position) (action : Scanning α) : Prop :=
  GoesAlong start action action

namespace Scanning.GoesAlong

variable {α β : Type} {action other : Scanning α} {next otherNext : α → Scanning β}

theorem pure (value : α) : GoesAlong start (pure value) (pure value) :=
  Parallel.pure rfl

theorem throw (fault : Diagnostic TokenFault) :
    GoesAlong start (MonadExcept.throw fault : Scanning α)
      (MonadExcept.throw (fault.movedTo start)) :=
  Parallel.throw rfl

theorem bind (before : GoesAlong start action other)
    (after : ∀ value, GoesAlong start (next value) (otherNext value)) :
    GoesAlong start (action >>= next) (other >>= otherNext) :=
  Parallel.bind_same before after

/-- A look at the scanner. -/
theorem get_bind {next otherNext : Scanner → Scanning β}
    (each : ∀ scanner, GoesAlong start (next scanner) (otherNext (scanner.movedTo start))) :
    GoesAlong start (get >>= next) (get >>= otherNext) := by
  refine Parallel.get_bind ?_
  rintro scanner _ rfl
  exact each scanner

theorem set (scanner : Scanner) :
    GoesAlong start (MonadStateOf.set scanner) (MonadStateOf.set (scanner.movedTo start)) :=
  fun _ _ _ => ⟨rfl, rfl⟩

/-- A new scanner. -/
theorem set_bind {next otherNext : Unit → Scanning β} {scanner moved : Scanner}
    (same : moved = scanner.movedTo start)
    (after : GoesAlong start (next ()) (otherNext ())) :
    GoesAlong start (MonadStateOf.set scanner >>= next) (MonadStateOf.set moved >>= otherNext) := by
  subst same
  exact (set scanner).bind fun _ => after

/-- A change of the scanner. -/
theorem modify_bind {next otherNext : Unit → Scanning β} {change : Scanner → Scanner}
    (same : ∀ scanner, change (scanner.movedTo start) = (change scanner).movedTo start)
    (after : GoesAlong start (next ()) (otherNext ())) :
    GoesAlong start (modify change >>= next) (modify change >>= otherNext) := by
  refine bind (Parallel.modify ?_ rfl) fun _ => after
  rintro scanner _ rfl
  exact same scanner

theorem modifyGet_bind {change : Scanner → α × Scanner}
    (same : ∀ scanner,
      change (scanner.movedTo start) = Prod.map id (·.movedTo start) (change scanner))
    (after : ∀ value, GoesAlong start (next value) (otherNext value)) :
    GoesAlong start (modifyGet change >>= next) (modifyGet change >>= otherNext) := by
  refine bind ?_ after
  rintro scanner _ rfl
  exact Prod.ext_iff.mp (same scanner)

/-- A computation that ends in the same way in both texts. -/
theorem of_eq
    (same : ∀ scanner, other (scanner.movedTo start) = moveResult start (action scanner)) :
    GoesAlong start action other := by
  rintro scanner _ rfl
  rw [same]
  cases action scanner with
  | ok value after => exact ⟨rfl, rfl⟩
  | error fault after => exact ⟨rfl, rfl⟩

/-- What the other computation does. -/
theorem eq (moves : GoesAlong start action other) (scanner : Scanner) :
    other (scanner.movedTo start) = moveResult start (action scanner) := by
  have same := @moves scanner _ rfl
  revert same
  cases action scanner <;> cases other (scanner.movedTo start)
  · rintro ⟨rfl, rfl⟩
    rfl
  · exact False.elim
  · exact False.elim
  · rintro ⟨rfl, rfl⟩
    rfl

end Scanning.GoesAlong

theorem SimpleRule.MovesTo.run {rule : SimpleRule} (moves : rule.MovesTo start) :
    Scanning.MovesTo start (SimpleRule.run rule) := by
  refine .of_eq fun scanner => ?_
  unfold SimpleRule.run
  rw [moves]
  cases rule scanner <;> rfl

theorem CheckedRule.MovesTo.run {rule : CheckedRule} (moves : rule.MovesTo start) :
    Scanning.MovesTo start (CheckedRule.run rule) := by
  refine .of_eq fun scanner => ?_
  unfold CheckedRule.run
  rw [moves]
  cases rule scanner with
  | error fault => rfl
  | ok found => cases found <;> rfl

theorem movesTo_repeatRule {rule : Scanning Bool} (moves : Scanning.MovesTo start rule)
    (budget : Nat) : Scanning.MovesTo start (repeatRule rule budget) := by
  induction budget with
  | zero => exact .pure ()
  | succ budget ih =>
      refine moves.bind fun matched => ?_
      cases matched with
      | false => exact .pure ()
      | true => exact ih

/-! ### Runs of text -/

@[simp]
theorem Scanner.pushText_movedTo (scanner : Scanner) (html : Bool) (value : List Char)
    (escaped : Nat) :
    (scanner.movedTo start).pushText html value escaped =
      (scanner.pushText html value escaped).movedTo start := by
  simp [pushText]

theorem Scanner.pushCode_movedTo (scanner : Scanner) (sigil : Char) (text : List Char) :
    (scanner.movedTo start).pushCode sigil text =
      moveExcept start (Prod.map (·.movedTo start) id) (scanner.pushCode sigil text) := by
  unfold pushCode
  split
  · rfl
  · rfl
  · simp [moveExcept]

section

variable {inner : Scanning Unit}

/-- A tag that is on one line is read on this line. -/
theorem onLine_of_goes (goes : Goes inner) {opened child : Scanner} {body : List Char}
    (oneLine : '\n' ∉ body) (read : inner (opened.nest body) = .ok () child) :
    child.position.line = opened.position.line ∧ '\n' ∉ child.unread := by
  have inside := (goes #[] _ _ (hasRoom_farCorner (opened.nest body))).goes
  rw [read] at inside
  have forward : opened.position.line ≤ child.position.line := inside.forward
  have lines : child.lastLine ≤ (opened.nest body).lastLine := inside.room.1
  have line : (opened.nest body).lastLine = opened.position.line := by
    rw [lastLine, nest, List.count_eq_zero.mpr oneLine]
    rfl
  rw [line] at lines
  unfold lastLine at lines
  exact ⟨by omega, List.count_eq_zero.mp (by omega)⟩

/-- Behind a tag the column is moved if and only if it was moved in front of it. -/
theorem parallel_interpolated (moves : Scanning.MovesTo start inner) (goes : Goes inner)
    {body : List Char} (oneLine : '\n' ∉ body) :
    Parallel (fun scanner moved => moved = scanner.movedTo start)
      (fun rest rest' => rest' = rest ∧ '\n' ∉ rest)
      (fun fault moved => moved = fault.movedTo start) (interpolated inner body)
      (interpolated inner body) := by
  rintro scanner _ rfl
  have opens : ((scanner.movedTo start).right 2).push .startInterpolation
      (scanner.movedTo start).position =
        ((scanner.right 2).push .startInterpolation scanner.position).movedTo start := by simp
  unfold interpolated
  rw [opens]
  generalize (scanner.right 2).push .startInterpolation scanner.position = opened
  dsimp only
  have nested : (opened.movedTo start).nest body = (opened.nest body).movedTo start := rfl
  rw [nested, moves.eq]
  cases read : inner (opened.nest body) with
  | error fault child => exact ⟨rfl, rfl⟩
  | ok value child =>
      rcases onLine_of_goes goes oneLine read with ⟨onLine, oneLineRest⟩
      refine ⟨⟨rfl, oneLineRest⟩, ?_⟩
      have behind : (⟨(opened.movedTo start).position.line,
          (child.movedTo start).position.column⟩ : Position) =
            (⟨opened.position.line, child.position.column⟩ : Position).movedTo start := by
        simp [Position.movedTo, onLine]
      have found : (child.movedTo start).found ++ (opened.movedTo start).found =
          (child.found ++ opened.found).map (·.movedTo start) := by
        simp [movedTo]
      have closes (back : Scanner) : ((back.movedTo start).right 1).push .endInterpolation
          (back.position.movedTo start) =
            ((back.right 1).push .endInterpolation back.position).movedTo start := by simp
      rw [behind, found]
      exact closes { opened with
        position := ⟨opened.position.line, child.position.column⟩
        found := child.found ++ opened.found
        events := child.events }

/-- A run of text that is on one line. -/
theorem movesTo_addText (moves : Scanning.MovesTo start inner) (goes : Goes inner)
    {html : Bool} {budget : Nat} {value held : List Char} {escaped : Nat} (oneLine : '\n' ∉ value) :
    Scanning.MovesTo start (addText inner html budget value held escaped) := by
  induction budget generalizing value held escaped with
  | zero => exact .pure ()
  | succ budget ih =>
      refine .get_bind fun scanner => ?_
      rw [interpolated_movedTo, markersAllowed_movedTo]
      cases found : findMarker scanner.interpolated scanner.markersAllowed value with
      | none =>
          dsimp only
          rw [pushText_movedTo]
          exact .set _
      | some parts =>
          rcases parts with ⟨front, marker, rest⟩
          have oneLineRest : '\n' ∉ rest := fun newline =>
            oneLine ((suffix_of_findMarker found).1.subset newline)
          cases marker with
          | escapedTag | escapedCode => exact ih oneLineRest
          | tag =>
              refine .set_bind (pushText_movedTo _ _ _ _) ?_
              refine Parallel.bind (parallel_interpolated moves goes oneLineRest) ?_
              rintro behind _ ⟨rfl, oneLineBehind⟩
              exact ih oneLineBehind
          | code sigil =>
              dsimp only
              rw [pushText_movedTo, pushCode_movedTo]
              generalize scanner.pushText html (held ++ front) escaped = shown
              have codes := gives_pushCode (holdsText_place shown html) shown sigil rest
              cases coded : shown.pushCode sigil rest with
              | error fault => exact .throw fault
              | ok result =>
                  refine .set_bind rfl (ih fun newline => ?_)
                  exact oneLineRest ((codes result coded).2.subset newline)
          | close =>
              refine .set_bind ?_ (.pure ())
              split
              · rfl
              · rw [pushText_movedTo]
                rfl

theorem movesTo_addRun (moves : Scanning.MovesTo start inner) (goes : Goes inner)
    {html : Bool} {value : List Char} (oneLine : '\n' ∉ value) :
    Scanning.MovesTo start (addRun inner html value) :=
  movesTo_addText moves goes oneLine

/-! ### Text blocks -/

theorem movesTo_addLines (moves : Scanning.MovesTo start inner) (goes : Goes inner)
    {width : Nat} {first : Bool} {block : List BlockLine}
    (oneLine : ∀ line ∈ block, '\n' ∉ line.text) :
    Scanning.MovesTo start (addLines inner width first block) := by
  induction block generalizing first with
  | nil => exact .pure ()
  | cons line rest ih =>
      rw [List.forall_mem_cons] at oneLine
      unfold addLines
      refine .get_bind fun scanner => .set_bind ?_ ?_
      · rw [nextLine_movedTo]
        cases first <;> cases line.indented <;> simp
      · exact (movesTo_addRun moves goes oneLine.1).bind fun _ => ih oneLine.2

theorem movesTo_textBlock (moves : Scanning.MovesTo start inner) (goes : Goes inner)
    (budget : Nat) (requested : Option Nat) :
    Scanning.MovesTo start
      (Rule.textBlock (SimpleRule.run Rule.blankLine) inner budget requested) := by
  induction budget generalizing requested with
  | zero => exact .pure false
  | succ budget ih =>
      refine .get_bind fun scanner => ?_
      refine (movesTo_repeatRule Rule.movesTo_blankLine.run _).bind fun _ => ?_
      refine .modifyGet_bind (fun scanner => ?_) fun scanned => ?_
      · rw [measure?_movedTo]
        cases scanner.measure? <;> rfl
      split
      · exact .pure false
      · refine .get_bind fun scanner => ?_
        rw [top_movedTo, unit_movedTo, unread_movedTo]
        split
        · exact .pure false
        · split
          · exact ih _
          · next block rest taken =>
              refine .set_bind rfl ?_
              refine (movesTo_addLines moves goes (newline_not_mem_of_takeBlock taken)).bind ?_
              intro _
              exact .modify_bind (fun _ => rfl) (.pure true)

end

end Offside
