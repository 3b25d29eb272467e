import Offside.Proofs.Position.Run
import Offside.Proofs.Slicing.Reader
import Offside.Token.Name

/-!
# Names and signs by byte offset

The matchers for names look for the end of a name in bytes; a name has as many bytes as characters,
but what stands behind it may have more.
-/

namespace Offside.Slicing

open Offside.Bracket (byteLength)
open Text

namespace Matcher

/-! ### Matchers -/

/-- A tag. -/
def tag : Reading Bool := do
  let text ← unread
  match text with
  | first :: _ =>
      if isWord first then
        let length := (find? (fun character => !(isWordOrDash character || character == ':'))
          text).getD (byteLength text)
        let run ← sliceTo text length
        let name := dropEndWhile (fun character => character == '-' || character == ':') run
        emit (.tag (String.ofList name)) (byteLength name)
        return true
      else
        return false
  | [] => return false

/-- An id. -/
def id : Reading Bool := do
  match ← unread with
  | '#' :: behind =>
      let length := nameLength behind
      if length = 0 then
        fail (.invalidId (Rule.badSelector behind))
      else
        let name ← sliceTo behind length
        emit (.id (String.ofList name)) (1 + length)
        return true
  | _ => return false

/-- A class. -/
def className : Reading Bool := do
  match ← unread with
  | '.' :: behind =>
      let length := nameLength behind
      let name ← sliceTo behind length
      if name.any fun character => character.isAlpha || character == '_' then
        emit (.className (String.ofList name)) (1 + length)
        return true
      else if length = 0 then
        fail (.invalidClassName (some (Rule.badSelector behind)))
      else
        fail (.invalidClassName none)
  | _ => return false

/-- Whether the bracket behind a call holds attributes rather than arguments. -/
def looksLikeAttributes (body : List Char) : Reading Bool := do
  let body := trimStart body
  let length := nameLength body
  if length = 0 then
    return false
  else
    match (← sliceFrom body length).dropWhile (· == ' ') with
    | '=' :: _ => return true
    | _ => return false

/-- The arguments in the bracket behind a call, if it stands there and holds no attributes. -/
def callArguments : Reading (Option (List Char)) := do
  let text ← unread
  let spaces ← leading (· == ' ') text
  match ← sliceFrom text spaces with
  | '(' :: _ =>
      let (close, body) ← bracketExpression spaces ')'
      if ← looksLikeAttributes body then
        return none
      else
        update (·.right (spaces + 1))
        consume (close + 1)
        update fun place => (place.past body).right 1
        return some body
  | _ => return none

/-- A call of a mixin. -/
def call : Reading Bool := do
  match ← unread with
  | '+' :: behind =>
      let blanks ← leading isIndentation behind
      let length := nameLength (← sliceFrom behind blanks)
      if length = 0 then
        return false
      else
        let name ← slice behind blanks (blanks + length)
        let start ← here
        consume (1 + blanks + length)
        update (·.right (1 + blanks + length))
        let found ← callArguments
        update (·.push (.call (String.ofList name) (found.map String.ofList)) start.position)
        return true
  | _ => return false

/-- A variable in place of a tag's name. -/
def interpolation : Reading Bool := do
  match ← unread with
  | '#' :: '\x7b' :: _ =>
      let (close, body) ← bracketExpression 1 '\x7d'
      consume (close + 1)
      update fun place =>
        (((place.right 2).past body).right 1).push (.interpolation (String.ofList body))
          place.position
      return true
  | _ => return false

/-- A slash. -/
def slash : Reading Bool := do
  match ← unread with
  | '/' :: _ =>
      emit .slash 1
      return true
  | _ => return false

/-- A colon and a space. -/
def colon : Reading Bool := do
  match ← unread with
  | ':' :: behind =>
      let spaces ← leading (· == ' ') behind
      if spaces = 0 then
        return false
      else
        emit .colon (1 + spaces)
        return true
  | _ => return false

/-! ### Rules for names and signs -/

theorem mirrors_tag : Mirrors tag (SimpleRule.run Rule.tag) := by
  intro front scanner
  refine .unread ?_
  split
  · next first rest unread_eq =>
      split
      · next word =>
          have run := find?_getD (fun character => !(isWordOrDash character || character == ':'))
            scanner.unread
          simp only [Bool.not_not] at run
          have parts := List.takeWhile_append_dropWhile
            (p := fun character => isWordOrDash character || character == ':') (l := scanner.unread)
          refine .of_eq (sliceTo_eq parts.symm run.symm) ?_
          have name := isPrefix_dropEndWhile (fun character => character == '-' || character == ':')
            (scanner.unread.takeWhile fun character => isWordOrDash character || character == ':')
          rcases name.trans (List.takeWhile_prefix _) with ⟨behind, cut⟩
          refine .emit cut.symm rfl (.matched ?_)
          simp only [Rule.tag, unread_eq, word, if_true]
      · next noWord => exact .declined (by simp [Rule.tag, unread_eq, noWord])
  · next nothing => exact .declined (by simp [Rule.tag, nothing])

theorem mirrors_id : Mirrors id (CheckedRule.run Rule.id) := by
  intro front scanner
  refine .unread ?_
  split
  · next behind unread_eq =>
      dsimp only
      split
      · next noName =>
          have empty := (nameLength_eq_zero_iff _).mp noName
          have failed : Rule.id scanner =
              .error (scanner.fault (.invalidId (Rule.badSelector behind))) := by
            simp only [Rule.id, unread_eq, empty, if_true]
          exact .checkedFailed failed rfl rfl
      · next named =>
          have some := mt (nameLength_eq_zero_iff _).mpr named
          have cut : scanner.unread = ('#' :: behind.takeWhile isWordOrDash) ++
              behind.dropWhile isWordOrDash := by
            rw [unread_eq, List.cons_append, List.takeWhile_append_dropWhile]
          refine .of_eq (sliceTo_nameLength behind)
            (.emit cut (by rw [nameLength_eq]; rfl) (.checkedMatched ?_))
          simp only [Rule.id, unread_eq, some, List.length_cons, Nat.add_comm]
          rfl
  · next noHash =>
      refine .checkedDeclined ?_
      unfold Rule.id
      split
      · next behind unread_eq => exact absurd unread_eq (noHash behind)
      · rfl

theorem mirrors_className : Mirrors className (CheckedRule.run Rule.className) := by
  intro front scanner
  refine .unread ?_
  split
  · next behind unread_eq =>
      refine .of_eq (sliceTo_nameLength behind) ?_
      split
      · next letter =>
          have cut : scanner.unread = ('.' :: behind.takeWhile isWordOrDash) ++
              behind.dropWhile isWordOrDash := by
            rw [unread_eq, List.cons_append, List.takeWhile_append_dropWhile]
          refine .emit cut (by rw [nameLength_eq]; rfl) (.checkedMatched ?_)
          simp only [Rule.className, unread_eq, letter, if_true, List.length_cons, Nat.add_comm]
      · next noLetter =>
          split
          · next noName =>
              have empty := (nameLength_eq_zero_iff _).mp noName
              have failed : Rule.className scanner =
                  .error (scanner.fault (.invalidClassName (some (Rule.badSelector behind)))) := by
                simp only [Rule.className, unread_eq, noLetter, empty, if_true]
                rfl
              exact .checkedFailed failed rfl rfl
          · next named =>
              have some := mt (nameLength_eq_zero_iff _).mpr named
              have failed : Rule.className scanner =
                  .error (scanner.fault (.invalidClassName none)) := by
                simp only [Rule.className, unread_eq, noLetter, some]
                rfl
              exact .checkedFailed failed rfl rfl
  · next noDot =>
      refine .checkedDeclined ?_
      unfold Rule.className
      split
      · next behind unread_eq => exact absurd unread_eq (noDot behind)
      · rfl

/-- A look at a bracket always finds the slice that it asks for. -/
theorem looksLikeAttributes_eq (body : List Char) :
    looksLikeAttributes body = pure (Rule.looksLikeAttributes body) := by
  unfold looksLikeAttributes Rule.looksLikeAttributes
  dsimp only
  generalize trimStart body = body
  have parts := List.takeWhile_append_dropWhile (p := isWordOrDash) (l := body)
  have behind : body.drop (body.takeWhile isWordOrDash).length = body.dropWhile isWordOrDash := by
    have dropped := congrArg (List.drop (body.takeWhile isWordOrDash).length) parts
    rw [List.drop_left] at dropped
    exact dropped.symm
  by_cases noName : nameLength body = 0
  · rw [if_pos noName, (nameLength_eq_zero_iff _).mp noName]
    rfl
  · have some := mt (nameLength_eq_zero_iff _).mpr noName
    rw [Bool.not_eq_true] at some
    rw [if_neg noName, sliceFrom_eq parts.symm (nameLength_eq body).symm, pure_bind, behind, some,
      Bool.not_false, Bool.true_and]
    cases (body.dropWhile isWordOrDash).dropWhile (· == ' ') with
    | nil => rfl
    | cons first others =>
        by_cases equals : first = '='
        · subst equals
          rfl
        · simp [equals]

/-- The call of a mixin, once its name is read: with the arguments behind it, if these are
arguments. -/
def callBehind (named : Scanner) (start : Position) (name : List Char) :
    Except (Diagnostic TokenFault) (Option Scanner) :=
  let plain := named.push (.call (String.ofList name) none) start
  let spaces := named.unread.takeWhile (· == ' ')
  match named.unread.dropWhile (· == ' ') with
  | '(' :: inside => do
      let (body, others) ← named.bracketed (spaces ++ ['(']) ')' inside
      if Rule.looksLikeAttributes body then
        return some plain
      let called := (((named.right (spaces.length + 1)).past body).right 1).push
        (.call (String.ofList name) (some (String.ofList body))) start
      return some { called with unread := others }
  | _ => return some plain

theorem call_eq {scanner : Scanner} {behind : List Char}
    (unread_eq : scanner.unread = '+' :: behind) :
    Rule.call scanner =
      let name := (behind.dropWhile isIndentation).takeWhile isWordOrDash
      if name.isEmpty then .ok none
      else
        callBehind { scanner.right (1 + (behind.takeWhile isIndentation).length + name.length) with
            unread := (behind.dropWhile isIndentation).drop name.length }
          scanner.position name := by
  simp only [Rule.call, unread_eq]
  rfl

section

variable {named : Scanner} {start : Position} {name inside body rest : List Char}

theorem callBehind_closed (opened : named.unread.dropWhile (· == ' ') = '(' :: inside)
    (found : named.bracketed (named.unread.takeWhile (· == ' ') ++ ['(']) ')' inside =
      .ok (body, rest)) :
    callBehind named start name =
      if Rule.looksLikeAttributes body then
        .ok (some (named.push (.call (String.ofList name) none) start))
      else
        .ok (some {
          (((named.right ((named.unread.takeWhile (· == ' ')).length + 1)).past body).right 1).push
            (.call (String.ofList name) (some (String.ofList body))) start with
          unread := rest }) := by
  simp only [callBehind, opened]
  rw [found]
  rfl

theorem callBehind_failed {fault : Diagnostic TokenFault}
    (opened : named.unread.dropWhile (· == ' ') = '(' :: inside)
    (found : named.bracketed (named.unread.takeWhile (· == ' ') ++ ['(']) ')' inside =
      .error fault) :
    callBehind named start name = .error fault := by
  simp only [callBehind, opened]
  rw [found]
  rfl

theorem callBehind_plain
    (plain : ∀ inside, named.unread.dropWhile (· == ' ') ≠ '(' :: inside) :
    callBehind named start name =
      .ok (some (named.push (.call (String.ofList name) none) start)) := by
  unfold callBehind
  dsimp only
  split
  · next behind => exact absurd behind (plain _)
  · rfl

/-- What a call does once its name is read. -/
theorem follows_callArguments {scanner : Scanner} {front : List Char}
    (ruled : Rule.call scanner = callBehind named start name)
    (events : named.events = scanner.events) :
    Follows (callArguments >>= fun found => do
        update (·.push (.call (String.ofList name) (found.map String.ofList)) start)
        return true)
      (.behind front named) (CheckedRule.run Rule.call) scanner := by
  have parts := List.takeWhile_append_dropWhile (p := (· == ' ')) (l := named.unread)
  have spaces : byteLength (named.unread.takeWhile (· == ' ')) =
      (named.unread.takeWhile (· == ' ')).length :=
    byteLength_takeWhile fun _ => utf8Size_of_eq rfl
  rw [callArguments, bind_assoc]
  refine .unread ?_
  rw [bind_assoc]
  refine .of_eq (leading_eq _ _) ?_
  rw [bind_assoc]
  refine .of_eq (sliceFrom_eq parts.symm rfl) ?_
  split
  · next inside opened =>
      have cut : named.unread = (named.unread.takeWhile (· == ' ') ++ ['(']) ++ inside := by
        rw [List.append_assoc, List.singleton_append, ← opened, parts]
      rw [bind_assoc]
      refine .bracketExpression cut (byteLength_append _ _) (fun body rest found inside_eq => ?_)
        fun fault found => ?_
      · rw [callBehind_closed opened found] at ruled
        dsimp only
        rw [bind_assoc]
        refine .of_eq (looksLikeAttributes_eq body) ?_
        split
        · next attributes =>
            rw [pure_bind]
            exact .update (fun _ => rfl) (.checkedMatched (by rw [ruled, if_pos attributes]; rfl))
        · next arguments =>
            have whole : named.unread =
                ((named.unread.takeWhile (· == ' ') ++ ['(']) ++ body ++ [')']) ++ rest := by
              nth_rewrite 1 [cut]
              rw [inside_eq]
              simp
            rw [if_neg arguments] at ruled
            rw [bind_assoc]
            refine .update (fun _ => rfl) ?_
            rw [bind_assoc]
            refine .consume whole ?_ ?_
            · simp only [byteLength_append]
              rfl
            · rw [bind_assoc]
              refine .update (fun _ => rfl) ?_
              rw [pure_bind]
              refine .update (fun _ => rfl) (.checkedMatched ?_)
              rw [ruled, spaces]
              rfl
      · rw [callBehind_failed opened found] at ruled
        refine ⟨scanner, ?_, events.symm⟩
        rw [CheckedRule.run, ruled]
  · next plain =>
      rw [pure_bind]
      exact .update (fun _ => rfl) (.checkedMatched (by rw [ruled, callBehind_plain plain]; rfl))

end

theorem mirrors_call : Mirrors call (CheckedRule.run Rule.call) := by
  intro front scanner
  refine .unread ?_
  split
  · next behind unread_eq =>
      have ruled := call_eq unread_eq
      refine .of_eq (leading_eq _ _) ?_
      have parts := List.takeWhile_append_dropWhile (p := isIndentation) (l := behind)
      have blanks : byteLength (behind.takeWhile isIndentation) =
          (behind.takeWhile isIndentation).length :=
        byteLength_takeWhile fun _ => utf8Size_of_isIndentation
      refine .of_eq (sliceFrom_eq parts.symm rfl) ?_
      generalize behind.takeWhile isIndentation = front at ruled parts blanks ⊢
      generalize others_eq : behind.dropWhile isIndentation = others at ruled parts ⊢
      subst parts
      dsimp only at ruled ⊢
      split
      · next noName =>
          rw [if_pos ((nameLength_eq_zero_iff _).mp noName)] at ruled
          exact .checkedDeclined ruled
      · next someName =>
          rw [if_neg (mt (nameLength_eq_zero_iff _).mpr someName)] at ruled
          have name := List.takeWhile_append_dropWhile (p := isWordOrDash) (l := others)
          have dropped := congrArg (List.drop (others.takeWhile isWordOrDash).length) name
          rw [List.drop_left] at dropped
          rw [← dropped] at ruled
          have length := nameLength_eq_length others
          have whole : '+' :: (front ++ others) =
              ('+' :: front) ++ others.takeWhile isWordOrDash ++ others.dropWhile isWordOrDash := by
            rw [List.append_assoc, name, List.cons_append]
          have named : front ++ others =
              front ++ others.takeWhile isWordOrDash ++ others.dropWhile isWordOrDash := by
            rw [List.append_assoc, name]
          refine .of_eq (slice_eq named rfl (by rw [nameLength_eq])) (.here ?_)
          refine .consume (unread_eq.trans whole) ?_ (.update (fun _ => rfl) ?_)
          · rw [byteLength_append, ← nameLength_eq]
            rfl
          · rw [blanks, length]
            exact follows_callArguments ruled rfl
  · next noPlus =>
      refine .checkedDeclined ?_
      unfold Rule.call
      split
      · next behind unread_eq => exact absurd unread_eq (noPlus behind)
      · rfl

theorem mirrors_interpolation : Mirrors interpolation (CheckedRule.run Rule.interpolation) := by
  intro front scanner
  refine .unread ?_
  split
  · next inside unread_eq =>
      have cut : scanner.unread = ['#', '\x7b'] ++ inside := unread_eq
      refine .bracketExpression cut rfl (fun body rest found inside_eq => ?_) fun fault found => ?_
      · have whole : scanner.unread = (['#', '\x7b'] ++ body ++ ['\x7d']) ++ rest := by
          rw [cut, inside_eq]
          simp
        refine .consume whole ?_ (.update (fun _ => rfl) (.checkedMatched ?_))
        · rw [byteLength_append, byteLength_append]
          rfl
        · simp only [Rule.interpolation, unread_eq]
          rw [found]
          rfl
      · refine ⟨scanner, ?_, rfl⟩
        rw [CheckedRule.run]
        simp only [Rule.interpolation, unread_eq]
        rw [found]
        rfl
  · next noBracket =>
      refine .checkedDeclined ?_
      unfold Rule.interpolation
      split
      · next behind unread_eq => exact absurd unread_eq (noBracket behind)
      · rfl

theorem mirrors_slash : Mirrors slash (SimpleRule.run Rule.slash) := by
  intro front scanner
  refine .unread ?_
  split
  · next rest unread_eq =>
      have cut : scanner.unread = ['/'] ++ rest := unread_eq
      exact .emit cut rfl (.matched (by simp [Rule.slash, unread_eq]))
  · next noSlash =>
      refine .declined ?_
      unfold Rule.slash
      split
      · next rest unread_eq => exact absurd unread_eq (noSlash rest)
      · rfl

theorem mirrors_colon : Mirrors colon (SimpleRule.run Rule.colon) := by
  intro front scanner
  refine .unread ?_
  split
  · next behind unread_eq =>
      refine .of_eq (leading_eq _ _) ?_
      split
      · next none =>
          have noSpaces := byteLength_eq_zero_iff.mp none
          exact .declined (by
            simp only [Rule.colon, unread_eq, noSpaces, List.isEmpty_nil, if_true])
      · next some =>
          have spaces := byteLength_eq_zero_iff.not.mp some
          have cut : scanner.unread = (':' :: behind.takeWhile (· == ' ')) ++
              behind.dropWhile (· == ' ') := by
            rw [unread_eq, List.cons_append, List.takeWhile_append_dropWhile]
          refine .emit cut rfl (.matched ?_)
          simp only [Rule.colon, unread_eq, List.isEmpty_iff, spaces, if_false, List.length_cons,
            Nat.add_comm]
  · next noColon =>
      refine .declined ?_
      unfold Rule.colon
      split
      · next rest unread_eq => exact absurd unread_eq (noColon rest)
      · rfl

end Matcher

end Offside.Slicing
