import Offside.Proofs.Nesting.Nested
import Offside.Token.Scanner

/-!
# How a scanner goes on

A rule adds tokens to those found so far and reads on in the same text. Only the rules for the
layout open or close levels; what all the others add is nested in itself.
-/

namespace Offside.Scanner

variable {here : Surrounding} {kind : TokenKind} {before middle after later : Scanner}

/-- The kinds of the tokens found so far, in order. -/
def kinds (scanner : Scanner) : List TokenKind :=
  scanner.found.reverse.map Token.kind

/-- Where the tokens of a scanner stand: among the lines, or inside an interpolated tag. -/
def place (scanner : Scanner) : Surrounding :=
  if scanner.interpolated then .interpolation else .lines

@[simp]
theorem kinds_push (scanner : Scanner) (kind : TokenKind) (start : Position) :
    (scanner.push kind start).kinds = scanner.kinds ++ [kind] := by
  simp [kinds, push]

/-! ### Adding tokens -/

/-- From one scanner to a later one, nested tokens are added, and no level is opened or closed. -/
structure Adds (here : Surrounding) (before after : Scanner) : Prop where
  interpolated : after.interpolated = before.interpolated
  levels : after.levels = before.levels
  nested : ∃ added, after.kinds = before.kinds ++ added ∧ Nested here added

namespace Adds

/-- No token is added. -/
theorem of_found_eq (found : after.found = before.found)
    (interpolated : after.interpolated = before.interpolated)
    (levels : after.levels = before.levels) : Adds here before after :=
  ⟨interpolated, levels, [], by simp [kinds, found], .nil⟩

theorem refl : Adds here before before :=
  of_found_eq rfl rfl rfl

theorem trans (first : Adds here before middle) (second : Adds here middle after) :
    Adds here before after := by
  rcases first.nested with ⟨added, found, nested⟩
  rcases second.nested with ⟨others, foundOthers, nestedOthers⟩
  refine ⟨second.interpolated.trans first.interpolated, second.levels.trans first.levels,
    added ++ others, ?_, nested.append nestedOthers⟩
  rw [foundOthers, found, List.append_assoc]

/-- The last scanner may change in everything but its tokens and levels. -/
theorem then_same (adds : Adds here before after) (found : later.found = after.found)
    (interpolated : later.interpolated = after.interpolated)
    (levels : later.levels = after.levels) : Adds here before later :=
  adds.trans (of_found_eq found interpolated levels)

theorem push (adds : Adds here before after) (allowed : here.allows kind = true)
    {start : Position} : Adds here before (after.push kind start) := by
  refine adds.trans ⟨rfl, rfl, [kind], ?_, .one allowed⟩
  exact kinds_push after kind start

/-- Tokens that stand inside a pair, once it is closed, stand around it. -/
theorem enclose {inside : Surrounding} {opening closing : TokenKind} {start stop : Position}
    (adds : Adds inside (before.push opening start) after) (held : here.holds inside = true)
    (opens : opening.opens? = some inside) (closes : closing.closes? = some inside) :
    Adds here before (after.push closing stop) := by
  rcases adds.nested with ⟨added, found, nested⟩
  refine ⟨adds.interpolated, adds.levels, opening :: added ++ [closing], ?_,
    .pair held opens closes nested⟩
  rw [kinds_push, found, kinds_push]
  simp

theorem atPlace (adds : Adds .interpolation before after) : Adds before.place before after := by
  rcases adds.nested with ⟨added, found, nested⟩
  refine ⟨adds.interpolated, adds.levels, added, found, ?_⟩
  unfold Scanner.place
  split
  · exact nested
  · exact nested.lines_of_interpolation

end Adds

/-- Tokens are added, and nothing else counts. -/
structure Inserts (here : Surrounding) (before after : Scanner) : Prop
    extends Adds here before after where
  unread : after.unread = before.unread
  ended : after.ended = before.ended

namespace Inserts

theorem of_found_eq (found : after.found = before.found)
    (interpolated : after.interpolated = before.interpolated)
    (levels : after.levels = before.levels) (unread : after.unread = before.unread)
    (ended : after.ended = before.ended) : Inserts here before after :=
  ⟨.of_found_eq found interpolated levels, unread, ended⟩

theorem refl : Inserts here before before :=
  of_found_eq rfl rfl rfl rfl rfl

theorem trans (first : Inserts here before middle) (second : Inserts here middle after) :
    Inserts here before after :=
  ⟨first.toAdds.trans second.toAdds, second.unread.trans first.unread,
    second.ended.trans first.ended⟩

theorem push (inserts : Inserts here before after) (allowed : here.allows kind = true)
    {start : Position} : Inserts here before (after.push kind start) :=
  ⟨inserts.toAdds.push allowed, inserts.unread, inserts.ended⟩

theorem enclose {inside : Surrounding} {opening closing : TokenKind} {start stop : Position}
    (inserts : Inserts inside (before.push opening start) after)
    (held : here.holds inside = true) (opens : opening.opens? = some inside)
    (closes : closing.closes? = some inside) : Inserts here before (after.push closing stop) :=
  ⟨inserts.toAdds.enclose held opens closes, inserts.unread, inserts.ended⟩

end Inserts

/-! ### Reading on -/

/-- A scanner reads on in its text, and adds tokens as it may at its place. Only an interpolated tag
ends on the way. -/
structure Extends (before after : Scanner) : Prop extends Adds before.place before after where
  unread : after.unread <:+ before.unread
  running : before.interpolated = false → after.ended = before.ended

/-- Something is read, if this is not the end. -/
def Reads (before after : Scanner) : Prop :=
  after.ended = true ∨ after.unread.length < before.unread.length

/-- What a rule does to a scanner, whether it matches or declines. -/
def Ruled (before : Scanner) (matched : Bool) (after : Scanner) : Prop :=
  Extends before after ∧ (matched = true → Reads before after)

theorem place_eq (same : after.interpolated = before.interpolated) :
    after.place = before.place := by
  simp [place, same]

namespace Extends

theorem refl : Extends before before :=
  ⟨.refl, List.suffix_rfl, fun _ => rfl⟩

theorem trans (first : Extends before middle) (second : Extends middle after) :
    Extends before after := by
  have samePlace := place_eq first.interpolated
  refine ⟨first.toAdds.trans (samePlace ▸ second.toAdds), second.unread.trans first.unread, ?_⟩
  intro outside
  rw [second.running (first.interpolated.trans outside), first.running outside]

/-- No token is added, and the text is read on. -/
theorem of_found_eq (found : after.found = before.found)
    (interpolated : after.interpolated = before.interpolated)
    (levels : after.levels = before.levels) (ended : after.ended = before.ended)
    (unread : after.unread <:+ before.unread) : Extends before after :=
  ⟨.of_found_eq found interpolated levels, unread, fun _ => ended⟩

theorem reads (first : Extends before middle) (second : Reads middle after) :
    Reads before after := by
  rcases second with ended | shorter
  · exact .inl ended
  · exact .inr (Nat.lt_of_lt_of_le shorter first.unread.length_le)

end Extends

theorem Ruled.declined : Ruled before false before :=
  ⟨.refl, by simp⟩

/-! ### Taking one token -/

/-- What is left of a text when at least one character of it is read. -/
def IsRest (rest text : List Char) : Prop :=
  ∃ first others, text = first :: others ∧ rest <:+ others

namespace IsRest

variable {rest others text : List Char}

theorem cons {first : Char} (suffix : rest <:+ others) : IsRest rest (first :: others) :=
  ⟨first, others, rfl, suffix⟩

theorem trans (suffix : rest <:+ others) (isRest : IsRest others text) : IsRest rest text := by
  rcases isRest with ⟨first, more, rfl, suffixMore⟩
  exact cons (suffix.trans suffixMore)

theorem suffix (isRest : IsRest rest text) : rest <:+ text := by
  rcases isRest with ⟨first, more, rfl, suffix⟩
  exact suffix.trans (List.suffix_cons first more)

theorem length_lt (isRest : IsRest rest text) : rest.length < text.length := by
  rcases isRest with ⟨first, more, rfl, suffix⟩
  exact Nat.lt_succ_of_le suffix.length_le

theorem drop {count : Nat} (someText : text ≠ []) (positive : 0 < count) :
    IsRest (text.drop count) text := by
  cases text with
  | nil => exact absurd rfl someText
  | cons first others =>
      cases count with
      | zero => cases positive
      | succ count => exact cons (List.drop_suffix count others)

theorem append {front : List Char} (someFront : front ≠ []) : IsRest rest (front ++ rest) := by
  cases front with
  | nil => exact absurd rfl someFront
  | cons first others => exact cons (List.suffix_append others rest)

end IsRest

/-- A scanner reads something and adds one token for it. -/
structure Takes (before after : Scanner) : Prop where
  interpolated : after.interpolated = before.interpolated
  levels : after.levels = before.levels
  ended : after.ended = before.ended
  found : ∃ token, after.found = token :: before.found ∧
    Surrounding.interpolation.allows token.kind = true
  unread : IsRest after.unread before.unread

theorem Takes.extends (takes : Takes before after) : Extends before after := by
  rcases takes.found with ⟨token, found, allowed⟩
  have added : after.kinds = before.kinds ++ [token.kind] := by simp [kinds, found]
  have adds : Adds .interpolation before after :=
    ⟨takes.interpolated, takes.levels, [token.kind], added, .one allowed⟩
  exact ⟨adds.atPlace, takes.unread.suffix, fun _ => takes.ended⟩

theorem Takes.ruled (takes : Takes before after) (matched : Bool) : Ruled before matched after :=
  ⟨takes.extends, fun _ => .inr takes.unread.length_lt⟩

theorem takes_emit {count : Nat} (allowed : Surrounding.interpolation.allows kind = true)
    (unread : before.unread ≠ []) (positive : 0 < count) : Takes before (before.emit kind count) :=
  ⟨rfl, rfl, rfl, ⟨_, rfl, allowed⟩, .drop unread positive⟩

end Offside.Scanner
