import Offside.Token.Basic

/-!
# Nested tokens

Some tokens come in pairs: one opens a level of indentation, an attribute list, an interpolated tag
or a text block, and the other closes it. What may stand between the two depends on the pair.
-/

namespace Offside

/-- What encloses a token: the innermost pair around it, or no pair at all, which counts as a level
of indentation. -/
inductive Surrounding where
  | lines
  | attributes
  | interpolation
  | textBlock
deriving DecidableEq

namespace TokenKind

/-- What a token opens. -/
def opens? : TokenKind → Option Surrounding
  | indent _ => some .lines
  | startAttributes => some .attributes
  | startInterpolation => some .interpolation
  | startTextBlock => some .textBlock
  | _ => none

/-- What a token closes. -/
def closes? : TokenKind → Option Surrounding
  | outdent => some .lines
  | endAttributes => some .attributes
  | endInterpolation => some .interpolation
  | endTextBlock => some .textBlock
  | _ => none

/-- Whether a token neither opens nor closes anything, not even the whole template. -/
def isSingle (kind : TokenKind) : Bool :=
  kind.opens?.isNone && kind.closes?.isNone && kind ≠ .eos

end TokenKind

namespace Surrounding

/-- The single tokens that may stand directly inside. -/
def allows : Surrounding → TokenKind → Bool
  | attributes, .attributeEntry .. => true
  | attributes, _ => false
  | textBlock, .text _ | textBlock, .newline | textBlock, .code .. => true
  | textBlock, _ => false
  | _, .attributeEntry .. => false
  | interpolation, .newline => false
  | _, kind => kind.isSingle

/-- The pairs that may stand directly inside. -/
def holds : Surrounding → Surrounding → Bool
  | lines, _ => true
  | attributes, _ => false
  | interpolation, inside => inside = attributes || inside = interpolation
  | textBlock, inside => inside = interpolation

end Surrounding

/-- Every token may stand where it stands, and every pair is complete. -/
inductive Nested : Surrounding → List TokenKind → Prop where
  | nil {place : Surrounding} : Nested place []
  | single {place : Surrounding} {kind : TokenKind} {rest : List TokenKind}
      (allowed : place.allows kind = true) (nestedRest : Nested place rest) :
      Nested place (kind :: rest)
  | enclosed {place inside : Surrounding} {opening closing : TokenKind}
      {body rest : List TokenKind} (held : place.holds inside = true)
      (opens : opening.opens? = some inside) (closes : closing.closes? = some inside)
      (nestedBody : Nested inside body) (nestedRest : Nested place rest) :
      Nested place (opening :: body ++ closing :: rest)

namespace Nested

variable {place inside : Surrounding} {kind opening closing : TokenKind}
  {kinds others : List TokenKind}

theorem append (nested : Nested place kinds) (nestedOthers : Nested place others) :
    Nested place (kinds ++ others) := by
  induction nested with
  | nil => exact nestedOthers
  | single allowed _ ih => exact .single allowed (ih nestedOthers)
  | enclosed held opens closes nestedBody _ _ ihRest =>
      rw [List.append_assoc, List.cons_append]
      exact .enclosed held opens closes nestedBody (ihRest nestedOthers)

theorem one (allowed : place.allows kind = true) : Nested place [kind] :=
  .single allowed .nil

theorem pair (held : place.holds inside = true) (opens : opening.opens? = some inside)
    (closes : closing.closes? = some inside) (nested : Nested inside kinds) :
    Nested place (opening :: kinds ++ [closing]) :=
  .enclosed held opens closes nested .nil

theorem isSingle_of_allows (allowed : place.allows kind = true) : kind.isSingle = true := by
  cases place <;> cases kind <;> first | rfl | exact allowed

/-- What may stand inside an interpolated tag may stand among the lines. -/
theorem lines_of_interpolation (nested : Nested .interpolation kinds) : Nested .lines kinds := by
  generalize inInterpolation : Surrounding.interpolation = here at nested
  induction nested with
  | nil => exact .nil
  | @single _ kind _ allowed _ ih =>
      subst inInterpolation
      have allowedInLines : Surrounding.lines.allows kind = true := by
        cases kind <;> first | rfl | cases allowed
      exact .single allowedInLines (ih rfl)
  | enclosed _ opens closes nestedBody _ _ ihRest =>
      exact .enclosed rfl opens closes nestedBody (ihRest inInterpolation)

/-- The end of the template stands nowhere inside. -/
theorem eos_not_mem (nested : Nested place kinds) : .eos ∉ kinds := by
  induction nested with
  | nil => exact List.not_mem_nil
  | single allowed _ ih =>
      rintro (_ | ⟨_, inRest⟩)
      · cases isSingle_of_allows allowed
      · exact ih inRest
  | enclosed _ opens closes _ _ ihBody ihRest =>
      intro inside
      simp only [List.cons_append, List.mem_cons, List.mem_append] at inside
      rcases inside with rfl | inBody | rfl | inRest
      · cases opens
      · exact ihBody inBody
      · cases closes
      · exact ihRest inRest

end Nested

/-- Every token may stand where it stands, but some levels of indentation are still open. -/
inductive OpenNested : (depth : Nat) → List TokenKind → Prop where
  | closed {kinds : List TokenKind} (nested : Nested .lines kinds) : OpenNested 0 kinds
  | indented {depth width : Nat} {outer body : List TokenKind}
      (nestedOuter : OpenNested depth outer) (nestedBody : Nested .lines body) :
      OpenNested (depth + 1) (outer ++ .indent width :: body)

namespace OpenNested

variable {depth width : Nat} {kinds others : List TokenKind}

theorem append (nested : OpenNested depth kinds) (nestedOthers : Nested .lines others) :
    OpenNested depth (kinds ++ others) := by
  cases nested with
  | closed nested => exact .closed (nested.append nestedOthers)
  | indented nestedOuter nestedBody =>
      rw [List.append_assoc, List.cons_append]
      exact .indented nestedOuter (nestedBody.append nestedOthers)

theorem indent (nested : OpenNested depth kinds) :
    OpenNested (depth + 1) (kinds ++ [.indent width]) :=
  .indented nested .nil

theorem outdent (nested : OpenNested (depth + 1) kinds) :
    OpenNested depth (kinds ++ [.outdent]) := by
  cases nested with
  | indented nestedOuter nestedBody =>
      rw [List.append_assoc]
      exact nestedOuter.append (.pair rfl rfl rfl nestedBody)

/-- One token for each level that is left closes these levels. -/
theorem outdents {count : Nat} (nested : OpenNested (count + depth) kinds) :
    OpenNested depth (kinds ++ List.replicate count .outdent) := by
  induction count generalizing kinds with
  | zero => simpa using nested
  | succ count ih =>
      rw [Nat.succ_add] at nested
      rw [List.replicate_succ, List.append_cons]
      exact ih nested.outdent

end OpenNested

end Offside
