import Offside.Filter.Apply
import Offside.Proofs.Computation

/-!
# Chains of filters

Filters are chained in two ways: some are written one inside of the other around a text, or an
included file goes through some. In both ways the last of them gets the text, and each of the others
gets what the one behind it has made. So the text and the causes for which there is none are those
of a fold from the right, which does not look at the way in which the filters were written.
-/

namespace Offside

open Computing

namespace Filtering

/-- Whatever was counted and noted before, the computation gives this value or fails for this
cause. -/
def ComesTo {α : Type} (action : Filtering α) (result : Except FilterFault α) : Prop :=
  ∀ state, (outcome (action state)).mapError Diagnostic.cause = result

namespace ComesTo

variable {α β : Type} {action : Filtering α} {next : α → Filtering β}
  {result : Except FilterFault α} {after : α → Except FilterFault β}

theorem pure (value : α) : ComesTo (pure value) (.ok value) :=
  fun _ => rfl

theorem bind (first : ComesTo action result)
    (second : ∀ value, result = .ok value → ComesTo (next value) (after value)) :
    ComesTo (action >>= next) (result >>= after) := by
  intro state
  have done := first state
  cases acted : action state with
  | error fault middle =>
      rw [acted] at done
      rw [bind_of_error acted, ← done]
      rfl
  | ok value middle =>
      rw [acted] at done
      rw [bind_of_ok acted, ← done]
      exact second value done.symm middle

/-- The value is only put into another form. -/
theorem map {change : α → β} (comesTo : ComesTo action result) :
    ComesTo (action >>= fun value => return change value) (result.map change) := by
  have done := comesTo.bind fun value _ => .pure (change value)
  cases result <;> exact done

/-- The value of the second part is only put into another form. -/
theorem bind_map {γ : Type} {next : α → Filtering γ} {change : β → γ}
    (first : ComesTo action result)
    (second : ∀ value, result = .ok value → ComesTo (next value) ((after value).map change)) :
    ComesTo (action >>= next) ((result >>= after).map change) := by
  have done := first.bind second
  cases result <;> exact done

/-- What is counted and noted makes no difference. -/
theorem modify_bind {next : Unit → Filtering α} {change : FilterState → FilterState}
    (each : ComesTo (next ()) result) : ComesTo (modify change >>= next) result :=
  fun state => each (change state)

theorem require (span : Span) : ComesTo (Filtering.require span result) result := by
  cases result <;> exact fun _ => rfl

theorem accept (span : Span) (name : String) (result : Except String String) :
    ComesTo (Filtering.accept span name result) (result.mapError (.refused name)) := by
  cases result <;> exact fun _ => rfl

end ComesTo

end Filtering

namespace FilterSet

variable (set : FilterSet)

/-- What a filter makes of a text that stands in a file, or why it makes nothing of it. -/
def through (file : Option String) (entry : IncludeFilter) (text : String) :
    Except FilterFault String := do
  let (resolved, filter) ← set.find entry.name
  let options := set.options entry.name resolved entry.attributes file
  (filter.ofText text options).mapError (.refused entry.name)

/-- What some filters make of a text that stands in a file, when the last of them comes first. -/
def throughAll (file : Option String) (entries : List IncludeFilter) (text : String) :
    Except FilterFault String :=
  entries.foldrM (set.through file) text

/-- If there is a filter of this name then it takes an included file as a text. -/
def TakesText (name : String) : Prop :=
  ∀ resolved filter, set.find name = .ok (resolved, filter) → filter.takesBytes = false

/-- Where the filter is written makes no difference. -/
theorem comesTo_applyToText (entry : IncludeFilter) (text : String) (file : Option String)
    (span : Span) :
    Filtering.ComesTo (set.applyToText entry.name entry.attributes text file span)
      (set.through file entry text) :=
  .bind (.require span) fun _ _ => .modify_bind (.accept span entry.name _)

theorem comesTo_applyInTurn (file : Option String) (entries : List IncludeFilter) (text : String) :
    Filtering.ComesTo (set.applyInTurn file entries text)
      (entries.foldlM (fun text entry => set.through file entry text) text) := by
  induction entries generalizing text with
  | nil => exact .pure text
  | cons entry rest ih =>
      rw [List.foldlM_cons]
      exact .bind (set.comesTo_applyToText entry text file entry.span) fun text _ => ih text

/-- A file whose text is known goes through a filter as a text does. -/
theorem comesTo_applyToFile {entry : IncludeFilter} {reference : Reference} {contents : String}
    (known : reference.contents = some contents) (text : set.TakesText entry.name) (span : Span) :
    Filtering.ComesTo (set.applyToFile entry reference span)
      (set.through reference.fullPath entry contents) := by
  refine .bind (.require entry.span) fun found isFound => ?_
  have takesText : found.2.takesBytes = false := text found.1 found.2 isFound
  simp only [takesText, known, Bool.false_eq_true, if_false]
  exact .accept entry.span entry.name _

end FilterSet

/-- Filters that are written one inside of the other around a text of a file. The first of a list of
filters is the outermost one. -/
inductive Node.Nests (path contents : String) : List IncludeFilter → Node → Prop where
  | innermost {entry : IncludeFilter} {span body textSpan : Span} {html : Bool}
      (file : span.file = some path) :
      Nests path contents [entry] (.branch span (.filter entry.name entry.attributes body)
        [.leaf textSpan (.text contents html)])
  | around {entry : IncludeFilter} {rest : List IncludeFilter} {span body : Span} {inner : Node}
      (file : span.file = some path) (inside : Nests path contents rest inner) :
      Nests path contents (entry :: rest)
        (.branch span (.filter entry.name entry.attributes body) [inner])

namespace FilterSet

variable {set : FilterSet} {path contents : String} {filters : List IncludeFilter} {nested : Node}

/-- A filter around one node, which comes to a text. -/
theorem comesTo_filter (entry : IncludeFilter) {span body place : Span} {inner : Node}
    {html : Bool} {result : Except FilterFault String} (file : span.file = some path)
    (inside : Filtering.ComesTo (set.applyToNode inner)
      (result.map fun text => .leaf place (.text text html))) :
    Filtering.ComesTo
      (set.applyToNode (.branch span (.filter entry.name entry.attributes body) [inner]))
      ((result >>= set.through (some path) entry).map fun text =>
        .leaf span (.text text false)) := by
  have children : Filtering.ComesTo (set.applyToNodes [inner])
      (result.map fun text => [.leaf place (.text text html)]) := by
    have last : set.applyToNodes [] = pure [] := by rw [applyToNodes]
    rw [applyToNodes, last]
    have done : Filtering.ComesTo (set.applyToNode inner >>= fun node => return [node])
        ((result.map fun text => .leaf place (.text text html)).map fun node => [node]) :=
      inside.map
    cases result <;> exact done
  have whole : Filtering.ComesTo
      (set.applyToNode (.branch span (.filter entry.name entry.attributes body) [inner]))
      ((result.map fun text => [.leaf place (.text text html)]) >>= fun nodes =>
        (set.through (some path) entry (bodyText nodes)).map fun text =>
          .leaf span (.text text false)) := by
    rw [applyToNode]
    refine children.bind fun nodes _ => .modify_bind (.map ?_)
    rw [← file]
    exact set.comesTo_applyToText entry (bodyText nodes) span.file span
  cases result with
  | error cause => exact whole
  | ok text =>
      have body : bodyText [.leaf place (.text text html)] = text := by simp [bodyText, String.join]
      rw [← body]
      exact whole

/-- Filters that are written one inside of the other. -/
theorem comesTo_nested (nests : Node.Nests path contents filters nested) :
    Filtering.ComesTo (set.applyToNode nested)
      ((set.throughAll (some path) filters contents).map fun text =>
        .leaf nested.span (.text text false)) := by
  unfold throughAll
  induction nests with
  | innermost file =>
      rename_i entry span body textSpan html
      have text : Filtering.ComesTo (set.applyToNode (.leaf textSpan (.text contents html)))
          ((Except.ok contents).map fun text => .leaf textSpan (.text text html)) := by
        rw [applyToNode]
        exact .pure _
      rw [List.foldrM_cons, List.foldrM_nil]
      exact comesTo_filter entry file text
  | around file inside ih =>
      rw [List.foldrM_cons]
      exact comesTo_filter _ file ih

/-- The filters of an included file whose text is known. The last of them gets this text. -/
theorem comesTo_filteredFile {reference : Reference} (known : reference.contents = some contents)
    (text : ∀ entry ∈ filters.getLast?, set.TakesText entry.name) (someFilter : filters ≠ [])
    (span : Span) (loaded children : List Node) :
    Filtering.ComesTo (set.applyToNode (.file span (.raw filters) reference loaded children))
      ((set.throughAll reference.fullPath filters contents).map fun text =>
        .leaf span (.text text false)) := by
  unfold applyToNode throughAll
  dsimp only
  rw [← List.foldlM_reverse]
  split
  · rename_i none
    exact absurd (List.reverse_eq_nil_iff.mp none) someFilter
  · rename_i innermost outer order
    have last : filters.getLast? = some innermost := by
      rw [← List.head?_reverse, order]
      rfl
    rw [order, List.foldlM_cons]
    refine .modify_bind (.bind_map (set.comesTo_applyToFile known (text innermost last) span) ?_)
    exact fun text _ => (set.comesTo_applyInTurn reference.fullPath outer text).map

/-- Filters that are written one inside of the other around a text of a file, and the same filters
of an included file with this text: both come to the same text, in the place of the outermost node,
or fail for the same cause. -/
theorem chains_agree {reference : Reference} (nests : Node.Nests path contents filters nested)
    (fullPath : reference.fullPath = some path) (known : reference.contents = some contents)
    (text : ∀ entry ∈ filters.getLast?, set.TakesText entry.name) (span : Span)
    (loaded children : List Node) :
    Filtering.ComesTo (set.applyToNode (.file span (.raw filters) reference loaded children))
        ((set.throughAll (some path) filters contents).map fun text =>
          .leaf span (.text text false)) ∧
      Filtering.ComesTo (set.applyToNode nested)
        ((set.throughAll (some path) filters contents).map fun text =>
          .leaf nested.span (.text text false)) := by
  have someFilter : filters ≠ [] := by cases nests <;> exact List.cons_ne_nil _ _
  have file := comesTo_filteredFile known text someFilter span loaded children
  rw [fullPath] at file
  exact ⟨file, comesTo_nested nests⟩

/-- Two filters, of which the outer one is called by another name. -/
theorem chains_agree_box :
    let set : FilterSet := {
      filters := [("wrap", .text fun text _ => .ok ("[" ++ text ++ "]")),
        ("call", .text fun text _ => .ok (text ++ "!"))]
      aliases := [("box", "wrap")] }
    let filters : List IncludeFilter := [⟨{}, "box", []⟩, ⟨{}, "call", []⟩]
    let place : Span := ⟨some "a.txt", 1, 1⟩
    let nested : Node := .branch place (.filter "box" [] {}) [
      .branch place (.filter "call" [] {}) [.leaf {} (.text "x" false)]]
    let reference : Reference :=
      { span := {}, path := "a.txt", fullPath := some "a.txt", contents := some "x" }
    Node.Nests "a.txt" "x" filters nested ∧ reference.fullPath = some "a.txt" ∧
      reference.contents = some "x" ∧
      (∀ entry ∈ filters.getLast?, set.TakesText entry.name) ∧
      Filtering.ComesTo (set.applyToNode (.file {} (.raw filters) reference [] []))
        (.ok (.leaf {} (.text "[x!]" false))) ∧
      Filtering.ComesTo (set.applyToNode nested) (.ok (.leaf place (.text "[x!]" false))) := by
  intro set filters place nested reference
  have nests : Node.Nests "a.txt" "x" filters nested :=
    .around rfl (.innermost rfl)
  have text : ∀ entry ∈ filters.getLast?, set.TakesText entry.name := by
    rintro entry ⟨⟩ resolved filter ⟨⟩
    rfl
  have made : set.throughAll (some "a.txt") filters "x" = .ok "[x!]" := rfl
  have fullPath : reference.fullPath = some "a.txt" := rfl
  have known : reference.contents = some "x" := rfl
  have agree := chains_agree nests fullPath known text {} [] []
  rw [made] at agree
  exact ⟨nests, fullPath, known, text, agree⟩

end FilterSet

end Offside
