import Offside.Proofs.Position.Text
import Offside.Proofs.Slicing.Reader

/-!
# Runs of text by byte offset

A run of text is cut at its markers, and each cut is an offset in what is left of it. The inside of
an interpolated tag is read by a reader of its own, with an input of its own; what that reader
leaves is found again at the end of the text, or else replaces it.
-/

namespace Offside.Slicing

open Offside.Bracket (byteLength)
open Computing Text

namespace Matcher

/-! ### Markers -/

/-- The marker at the start of a text. -/
def markerAt : List Char → Reading (Option Marker)
  | '\\' :: '#' :: '[' :: _ => return some .escapedTag
  | text@('\\' :: '#' :: '\x7b' :: _) | text@('\\' :: '!' :: '\x7b' :: _) => do
      let behind ← sliceFrom text 1
      return some (.escapedCode (behind.headD '#'))
  | '#' :: '[' :: _ => return some .tag
  | '#' :: '\x7b' :: _ => return some (.code '#')
  | '!' :: '\x7b' :: _ => return some (.code '!')
  | _ => return none

/-- The first marker of a text from an offset on, where `rest` stands, and its offset. -/
def findMarker (interpolated allowed : Bool) (text : List Char) :
    (offset : Nat) → (rest : List Char) → Reading (Option (Nat × Marker))
  | _, [] => return none
  | offset, character :: rest => do
      let behind ← sliceFrom text offset
      if interpolated && character == ']' then
        return some (offset, .close)
      else if !allowed then
        findMarker interpolated allowed text (offset + character.utf8Size) rest
      else
        match ← markerAt behind with
        | some marker => return some (offset, marker)
        | none => findMarker interpolated allowed text (offset + character.utf8Size) rest

/-- Read an interpolated tag with a reader of its own. What it leaves unread is given. -/
def interpolated (inner : Reading Unit) (body : List Char) : Reading (List Char) := fun reader =>
  let opened := (reader.place.right 2).push .startInterpolation reader.place.position
  match (inner *> unread) ⟨body, 0, opened.nest []⟩ with
  | .error halt child =>
      .error halt { reader with place := { opened with events := child.place.events } }
  | .ok left child =>
      let back := { opened with
        position := ⟨opened.position.line, child.place.position.column⟩
        found := child.place.found ++ opened.found
        events := child.place.events }
      .ok left { reader with place := (back.right 1).push .endInterpolation back.position }

/-- Put a text in front of what is unread, and end the tag that is being read. -/
def leave (behind : List Char) : Reading Unit := do
  let left ← unread
  modify fun reader => ⟨behind ++ left, 0, { reader.place with ended := true }⟩

/-- Add the tokens of a run of text from an offset on. -/
def addText (inner : Reading Unit) (html : Bool) :
    (budget : Nat) → (value : List Char) → (start : Nat) → (held : List Char) →
      (escaped : Nat) → Reading Unit
  | 0, _, _, _, _ => pure ()
  | budget + 1, value, start, held, escaped => do
      let rest ← sliceFrom value start
      let place ← here
      match ← findMarker place.interpolated place.markersAllowed rest 0 rest with
      | none => update (·.pushText html (held ++ rest) escaped)
      | some (offset, .escapedTag) =>
          let before ← sliceTo rest offset
          addText inner html budget value (start + (offset + 3)) (held ++ before ++ ['#', '['])
            (escaped + 1)
      | some (offset, .escapedCode sigil) =>
          let before ← sliceTo rest offset
          addText inner html budget value (start + (offset + 3)) (held ++ before ++ [sigil, '\x7b'])
            (escaped + 1)
      | some (offset, .tag) =>
          let before ← sliceTo rest offset
          update (·.pushText html (held ++ before) escaped)
          let body ← sliceFrom rest (offset + 2)
          let left ← interpolated inner body
          if left.isSuffixOf value then
            let start ← minus (byteLength value) (byteLength left)
            addText inner html budget value start [] 0
          else
            addText inner html budget left 0 [] 0
      | some (offset, .code sigil) =>
          let before ← sliceTo rest offset
          update (·.pushText html (held ++ before) escaped)
          match ← parseUntil rest (offset + 2) '\x7d' with
          | .error fault => failBracket '\x7d' fault
          | .ok (close, body) =>
              update fun place =>
                (((place.right 2).past body).right 1).push
                  (.code (String.ofList body) true (sigil == '#')) place.position
              addText inner html budget value (start + (close + 1)) [] 0
      | some (offset, .close) =>
          let before ← sliceTo rest offset
          let text := held ++ before
          update fun place => if text.isEmpty then place else place.pushText html text escaped
          let behind ← sliceFrom rest (offset + 1)
          leave behind

/-- Add the tokens of a whole run of text. -/
def addRun (inner : Reading Unit) (html : Bool) (value : List Char) : Reading Unit :=
  addText inner html (value.length + 1) value 0 [] 0

/-! ### Markers by offset -/

variable {text front rest value : List Char}

/-- A look at a marker always finds the slice that it asks for. -/
theorem markerAt_eq (text : List Char) :
    markerAt text = pure ((markerAt? text).map Prod.fst) := by
  have backslash (rest : List Char) : sliceFrom ('\\' :: rest) 1 = pure rest :=
    sliceFrom_eq (List.singleton_append ..).symm rfl
  unfold markerAt
  split
  · rfl
  · rw [backslash]
    rfl
  · rw [backslash]
    rfl
  · rfl
  · rfl
  · rfl
  · unfold markerAt?
    split
    all_goals first | rfl | simp_all

theorem findMarker_eq {interpolated allowed : Bool} {offset : Nat} (cut : text = front ++ rest)
    (offset_eq : byteLength front = offset) :
    findMarker interpolated allowed text offset rest =
      pure ((Offside.findMarker interpolated allowed rest).map fun parts =>
        (offset + byteLength parts.1, parts.2.1)) := by
  induction rest generalizing front offset with
  | nil => rfl
  | cons character rest ih =>
      have next : text = (front ++ [character]) ++ rest := by
        rw [cut, List.append_assoc, List.singleton_append]
      have later := ih next (byteLength_append ..)
      have last : byteLength [character] = character.utf8Size := rfl
      rw [last, offset_eq] at later
      have offset_cons (before : List Char) : offset + byteLength (character :: before) =
          offset + character.utf8Size + byteLength before := by
        rw [byteLength, Nat.add_assoc]
      rw [findMarker, Offside.findMarker, sliceFrom_eq cut offset_eq, pure_bind]
      split
      · rfl
      · cases allowed with
        | false =>
            simp only [Bool.not_false, if_true, Bool.false_eq_true, if_false]
            simp only [later, Option.map_map, Function.comp_def, offset_cons]
        | true =>
            simp only [Bool.not_true, Bool.false_eq_true, if_false, if_true]
            rw [markerAt_eq, pure_bind]
            cases markerAt? (character :: rest) with
            | none =>
                simp only [later, Option.map_none, Option.map_map, Function.comp_def, offset_cons]
            | some found => rfl

/-- How many bytes a marker takes. -/
def width : Marker → Nat
  | .escapedTag | .escapedCode _ => 3
  | .tag | .code _ => 2
  | .close => 1

/-- A marker is written in characters of one byte. -/
theorem byteLength_written {interpolated allowed : Bool} {before : List Char} {marker : Marker}
    (found : Offside.findMarker interpolated allowed text = some (before, marker, rest)) :
    byteLength marker.written = width marker := by
  induction text generalizing before with
  | nil => cases found
  | cons first others ih =>
      unfold Offside.findMarker at found
      split at found
      · cases found
        rfl
      · split at found
        · next opens =>
            cases found
            split at opens
            · unfold markerAt? at opens
              split at opens
              all_goals
                cases opens
                try rfl
            · cases opens
        · rcases Option.map_eq_some_iff.mp found with ⟨⟨before, behind⟩, foundLater, ⟨⟩⟩
          exact ih foundLater

/-! ### Interpolated tags and runs -/

section

variable {inner : Reading Unit} {innerRule : Scanning Unit} {scanner place : Scanner}

theorem follows_leave {behind : List Char} {rule : Scanning Unit}
    (ruled : rule scanner =
      .ok () { place with ended := true, unread := behind ++ place.unread }) :
    Follows (leave behind) (.behind front place) rule scanner := by
  refine .unread ?_
  unfold Follows
  rw [ruled]
  exact ⟨[], rfl⟩

/-- The reader of an interpolated tag is at the place of the scanner that reads it. -/
theorem mirrors_interpolated (mirrors : Mirrors inner innerRule) (body : List Char) :
    Mirrors (interpolated inner body) (Offside.interpolated innerRule body) := by
  intro front scanner
  let opened := (scanner.right 2).push .startInterpolation scanner.position
  have read : Ends (inner (.behind [] (opened.nest body))) (innerRule (opened.nest body)) :=
    mirrors [] (opened.nest body)
  have nested : interpolated inner body (.behind front scanner) =
      match (inner *> unread) (.behind [] (opened.nest body)) with
      | .error halt child =>
          .error halt (.behind front { opened with events := child.place.events })
      | .ok left child =>
          let back := { opened with
            position := ⟨opened.position.line, child.place.position.column⟩
            found := child.place.found ++ opened.found
            events := child.place.events }
          .ok left (.behind front ((back.right 1).push .endInterpolation back.position)) :=
    rfl
  unfold Follows Offside.interpolated
  rw [nested]
  dsimp only
  cases child : innerRule (opened.nest body) with
  | error fault stopped =>
      rw [child] at read
      rcases read with ⟨reader, acted, events⟩
      have failed : (inner *> unread) (.behind [] (opened.nest body)) =
          .error (.fault fault) reader := bind_of_error acted
      rw [failed]
      exact ⟨_, rfl, events⟩
  | ok value after =>
      rw [child] at read
      rcases read with ⟨consumed, acted⟩
      have left : (inner *> unread) (.behind [] (opened.nest body)) =
          .ok after.unread (.behind consumed after) :=
        (bind_of_ok acted).trans (unread_behind consumed after)
      rw [left]
      exact ⟨front, rfl⟩

theorem follows_addText (mirrors : Mirrors inner innerRule) (html : Bool) {budget start : Nat}
    {done current : List Char} (cut : value = done ++ current) (start_eq : byteLength done = start)
    (held : List Char) (escaped : Nat) :
    Follows (addText inner html budget value start held escaped) (.behind front scanner)
      (Offside.addText innerRule html budget current held escaped) scanner := by
  induction budget generalizing front scanner value done current start held escaped with
  | zero => exact .pure
  | succ budget ih =>
      rw [addText, Offside.addText]
      refine .get (.of_eq (sliceFrom_eq cut start_eq) (.here ?_))
      have whole : current = [] ++ current := rfl
      refine .of_eq (findMarker_eq whole rfl) ?_
      dsimp only [Reader.behind]
      cases found : Offside.findMarker scanner.interpolated scanner.markersAllowed current with
      | none =>
          dsimp only [Option.map_none]
          rw [← bind_pure (update _)]
          exact .update (fun _ => rfl) (.done rfl)
      | some parts =>
          rcases parts with ⟨before, marker, rest⟩
          have parts := eq_append_of_findMarker found
          have before_eq : sliceTo current (byteLength before) = pure before :=
            sliceTo_eq parts rfl
          dsimp only [Option.map_some]
          rw [Nat.zero_add]
          have behind : value = (done ++ (before ++ marker.written)) ++ rest := by
            rw [cut, parts]
            simp only [List.append_assoc]
          have read : byteLength (done ++ (before ++ marker.written)) =
              start + (byteLength before + width marker) := by
            rw [byteLength_append, byteLength_append, byteLength_written found, start_eq]
          have opened :
              byteLength (before ++ marker.written) = byteLength before + width marker := by
            rw [byteLength_append, byteLength_written found]
          rw [← List.append_assoc] at parts
          cases marker with
          | escapedTag | escapedCode => exact .of_eq before_eq (ih behind read _ _)
          | tag =>
              refine .of_eq before_eq (.update (fun _ => rfl) (.set ?_))
              refine .of_eq (sliceFrom_eq parts opened) ?_
              refine .bind (mirrors_interpolated mirrors rest _ _) fun left front after _ => ?_
              split
              · next isSuffix =>
                  rcases List.isSuffixOf_iff_suffix.mp isSuffix with ⟨before, cut⟩
                  have length := congrArg byteLength cut
                  rw [byteLength_append] at length
                  refine .of_eq (minus_eq (by omega)) (ih cut.symm (by omega) _ _)
              · exact ih (List.nil_append left).symm rfl _ _
          | code sigil =>
              refine .of_eq before_eq (.update (fun _ => rfl) ?_)
              refine .of_eq (parseUntil_eq parts opened) ?_
              dsimp only [Scanner.pushCode]
              cases bracket : Bracket.find '\x7d' rest with
              | unclosed => exact .fail rfl rfl rfl
              | mismatched => exact .fail rfl rfl rfl
              | closed body others =>
                  have closed := Bracket.eq_append_of_find_eq_closed bracket
                  have beyond : value =
                      (done ++ (before ++ Marker.written (.code sigil)) ++ (body ++ ['\x7d'])) ++
                        others := by
                    rw [behind, closed]
                    simp only [List.append_assoc, List.singleton_append]
                  refine .update (fun _ => rfl) (.set (ih beyond ?_ _ _))
                  rw [byteLength_append, byteLength_append body, read]
                  simp only [byteLength, width, Nat.add_assoc]
                  rfl
          | close =>
              refine .of_eq before_eq (.update (fun text => ?_) ?_)
              · dsimp only
                split <;> rfl
              · refine .of_eq (sliceFrom_eq parts opened) (follows_leave ?_)
                dsimp only
                split <;> rfl

theorem mirrors_addRun (mirrors : Mirrors inner innerRule) (html : Bool) (value : List Char) :
    Mirrors (addRun inner html value) (Offside.addRun innerRule html value) := fun _ _ =>
  follows_addText mirrors html (List.nil_append value).symm rfl [] 0

end

end Matcher

end Offside.Slicing
