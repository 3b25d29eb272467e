import Offside.Filter.Apply
import Offside.Proofs.Computation

/-!
# Uses of filters

Filters are used at the filters of a document and at those of its included files, and nowhere else
does it matter which filters there are. So filtering is described once more, for any way in which a
use may end. The filters of an included file are a fold from the right here: the last of them works
on the file, and each of the others on what the one behind it has made.

A use is reached when all that is filtered before it, in document order and in its own body, has
come to an end. The first use that is reached and fails is the one for which filtering fails.
-/

namespace Offside

open Computing

/-- What a filter works on. -/
inductive FilterInput where
  | text (text : String)
  /-- The file of a reference, for a node at a span. -/
  | file (reference : Reference) (span : Span)

/-- What filtering leaves in the place of a node, whose filters have made this of its input. -/
def FilterInput.inPlaceOf (node : Node) (input : FilterInput) : Node :=
  match input with
  | .text made => .leaf node.span (.text made false)
  | .file .. => node

/-- A use of a filter: the filter as it is written, the file in which its input stands, and the
input. -/
structure FilterUse where
  entry : IncludeFilter
  file : Option String
  input : FilterInput

/-- A way in which uses of filters end: with a text, or with a fault. -/
abbrev FilterRun := FilterUse → Except (Diagnostic FilterFault) String

/-- The fault of a use. -/
def FilterUse.fault (use : FilterUse) (cause : FilterFault) : Diagnostic FilterFault :=
  ⟨cause, use.entry.span, none⟩

/-- What a filter makes of the input of a use with some options. A file is given as its bytes if the
filter takes them, and as its text otherwise. -/
def FilterUse.through (use : FilterUse) (filter : Filter) (options : FilterOptions) :
    Except (Diagnostic FilterFault) String :=
  let accept (result : Except String String) :=
    result.mapError fun message => use.fault (.refused use.entry.name message)
  match use.input with
  | .text text => accept (filter.ofText text options)
  | .file reference span =>
      let unloaded : Diagnostic FilterFault := ⟨.unloadedFile reference.path, span, none⟩
      if filter.takesBytes then
        match reference.bytes with
        | none => .error unloaded
        | some bytes => accept (filter.ofBytes bytes options)
      else
        match reference.contents with
        | none => .error unloaded
        | some contents => accept (filter.ofText contents options)

/-- How uses end with some filters. -/
def FilterSet.run (set : FilterSet) : FilterRun := fun use =>
  match set.find use.entry.name with
  | .error cause => .error (use.fault cause)
  | .ok (resolved, filter) =>
      use.through filter (set.options use.entry.name resolved use.entry.attributes use.file)

/-! ### Filtering, for any way in which uses end -/

namespace FilterRun

variable (run : FilterRun)

/-- What a filter of an included file makes of the input that comes to it. -/
def pass (path : Option String) (input : FilterInput) (entry : IncludeFilter) :
    Except (Diagnostic FilterFault) FilterInput :=
  (run ⟨entry, path, input⟩).map .text

/-- What the filters of an included file make of it. Without filters it stays a file. -/
def throughAll (reference : Reference) (span : Span) (filters : List IncludeFilter) :
    Except (Diagnostic FilterFault) FilterInput :=
  filters.foldrM (fun entry input => run.pass reference.fullPath input entry)
    (.file reference span)

mutual

/-- The node without filters. -/
def onNode : Node → Except (Diagnostic FilterFault) Node
  | .leaf span content => .ok (.leaf span content)
  | .branch span label children => do
      let children ← onNodes children
      match label with
      | .filter name attributes _ =>
          let text ← run ⟨⟨span, name, attributes⟩, span.file, .text (bodyText children)⟩
          return .leaf span (.text text false)
      | _ => return .branch span label children
  | .file span (.inclusion body) reference loaded children => do
      let children ← onNodes children
      return .file span (.inclusion body) reference loaded children
  | .file span .inheritance reference loaded children =>
      .ok (.file span .inheritance reference loaded children)
  | .file span (.raw filters) reference loaded children =>
      (run.throughAll reference span filters).map
        (FilterInput.inPlaceOf (.file span (.raw filters) reference loaded children))

/-- The nodes without filters. -/
def onNodes : List Node → Except (Diagnostic FilterFault) (List Node)
  | [] => .ok []
  | node :: rest => do
      let node ← onNode node
      let rest ← onNodes rest
      return node :: rest

end

/-- The document without filters. -/
def onDocument (document : Document) : Except (Diagnostic FilterFault) Document := do
  let nodes ← run.onNodes document.nodes
  return { document with nodes := nodes }

/-- A use is reached when a node is filtered. -/
inductive Reaches (use : FilterUse) : Node → Prop where
  /-- In the body of the node, behind others that were filtered. -/
  | inside {node inner : Node} {before after filtered : List Node}
      (body : node.children? = some (before ++ inner :: after))
      (done : run.onNodes before = .ok filtered) (reaches : Reaches use inner) : Reaches use node
  /-- A filter, when its body was filtered. -/
  | filter {span body : Span} {name : String} {attributes : List Attribute}
      {children filtered : List Node} (done : run.onNodes children = .ok filtered)
      (same : use = ⟨⟨span, name, attributes⟩, span.file, .text (bodyText filtered)⟩) :
      Reaches use (.branch span (.filter name attributes body) children)
  /-- One of the filters of an included file, when those behind it came to an end. -/
  | file {span : Span} {reference : Reference} {outer inner : List IncludeFilter}
      {entry : IncludeFilter} {input : FilterInput} {loaded children : List Node}
      (done : run.throughAll reference span inner = .ok input)
      (same : use = ⟨entry, reference.fullPath, input⟩) :
      Reaches use (.file span (.raw (outer ++ entry :: inner)) reference loaded children)

/-- A use is reached when a document is filtered. -/
def Reached (document : Document) (use : FilterUse) : Prop :=
  ∃ before inner after filtered, document.nodes = before ++ inner :: after ∧
    run.onNodes before = .ok filtered ∧ run.Reaches use inner

end FilterRun

/-! ### Filtering with some filters -/

namespace Filtering

/-- Whatever was counted and noted before, the computation ends in this way. -/
def EndsIn {α : Type} (action : Filtering α) (result : Except (Diagnostic FilterFault) α) : Prop :=
  ∀ state, outcome (action state) = result

namespace EndsIn

variable {α β : Type} {action : Filtering α} {next : α → Filtering β}
  {result : Except (Diagnostic FilterFault) α} {after : α → Except (Diagnostic FilterFault) β}

theorem pure (value : α) : EndsIn (pure value) (.ok value) :=
  fun _ => rfl

theorem bind (first : EndsIn action result) (second : ∀ value, EndsIn (next value) (after value)) :
    EndsIn (action >>= next) (result >>= after) := by
  intro state
  have done := first state
  cases acted : action state with
  | error fault middle =>
      rw [acted] at done
      rw [bind_of_error acted, ← done]
      rfl
  | ok value middle =>
      rw [acted] at done
      rw [bind_of_ok acted, ← done]
      exact second value middle

/-- What is counted and noted makes no difference. -/
theorem modify_bind {next : Unit → Filtering α} {change : FilterState → FilterState}
    (each : EndsIn (next ()) result) : EndsIn (modify change >>= next) result :=
  fun state => each (change state)

theorem accept (span : Span) (name : String) (result : Except String String) :
    EndsIn (Filtering.accept span name result)
      (result.mapError fun message => ⟨.refused name message, span, none⟩) := by
  cases result <;> exact fun _ => rfl

/-- What goes on with a value, or fails at a span. -/
theorem require_bind {span : Span} {found : Except FilterFault α}
    {result : Except (Diagnostic FilterFault) β}
    (unfound : ∀ cause, found = .error cause → result = .error ⟨cause, span, none⟩)
    (each : ∀ value, found = .ok value → EndsIn (next value) result) :
    EndsIn (Filtering.require span found >>= next) result := by
  intro state
  cases found with
  | error cause => exact (unfound cause rfl).symm
  | ok value => exact each value rfl state

end EndsIn

end Filtering

namespace FilterSet

variable (set : FilterSet)

theorem endsIn_applyToText (entry : IncludeFilter) (text : String) (file : Option String) :
    Filtering.EndsIn (set.applyToText entry.name entry.attributes text file entry.span)
      (set.run ⟨entry, file, .text text⟩) := by
  refine .require_bind (fun cause isCause => ?_) fun found isFound => .modify_bind ?_
  · simp only [run, isCause, FilterUse.fault]
  · simp only [run, isFound]
    exact .accept entry.span entry.name _

theorem endsIn_applyToFile (entry : IncludeFilter) (reference : Reference) (span : Span) :
    Filtering.EndsIn (set.applyToFile entry reference span)
      (set.run ⟨entry, reference.fullPath, .file reference span⟩) := by
  refine .require_bind (fun cause isCause => ?_) fun found isFound => ?_
  · simp only [run, isCause, FilterUse.fault]
  · simp only [run, isFound, FilterUse.through]
    split
    · cases reference.bytes with
      | none => exact fun _ => rfl
      | some bytes => exact .accept entry.span entry.name _
    · cases reference.contents with
      | none => exact fun _ => rfl
      | some contents => exact .accept entry.span entry.name _

/-- The filters of an included file around the innermost one, which has made a text of it. -/
theorem endsIn_applyInTurn (path : Option String) (outer : List IncludeFilter) (text : String)
    (finish : FilterInput → Node) :
    Filtering.EndsIn
      (set.applyInTurn path outer text >>= fun text => return finish (.text text))
      ((outer.foldlM (set.run.pass path) (.text text)).map finish) := by
  induction outer generalizing text with
  | nil => exact .pure _
  | cons entry rest ih =>
      have whole := (set.endsIn_applyToText entry text path).bind ih
      rw [List.foldlM_cons, applyInTurn, bind_assoc, FilterRun.pass]
      cases made : set.run ⟨entry, path, .text text⟩ <;> rw [made] at whole <;> exact whole

mutual

theorem endsIn_applyToNode : ∀ node : Node,
    Filtering.EndsIn (set.applyToNode node) (set.run.onNode node)
  | .leaf .. => by
      unfold applyToNode FilterRun.onNode
      exact .pure _
  | .branch span label children => by
      unfold applyToNode FilterRun.onNode
      refine (endsIn_applyToNodes children).bind fun filtered => ?_
      cases label
      case filter name attributes body =>
        exact .modify_bind ((set.endsIn_applyToText ⟨span, name, attributes⟩ _ _).bind fun text =>
          .pure _)
      all_goals exact .pure _
  | .file span use reference loaded children => by
      unfold applyToNode
      cases use with
      | inheritance =>
          unfold FilterRun.onNode
          exact .pure _
      | inclusion body =>
          unfold FilterRun.onNode
          exact (endsIn_applyToNodes children).bind fun filtered => .pure _
      | raw filters =>
          unfold FilterRun.onNode FilterRun.throughAll
          dsimp only
          rw [← List.foldlM_reverse]
          cases filters.reverse with
          | nil => exact .pure _
          | cons innermost outer =>
              let node : Node := .file span (.raw filters) reference loaded children
              have whole := (set.endsIn_applyToFile innermost reference span).bind fun text =>
                set.endsIn_applyInTurn reference.fullPath outer text (FilterInput.inPlaceOf node)
              refine .modify_bind ?_
              rw [List.foldlM_cons, FilterRun.pass]
              cases made : set.run ⟨innermost, reference.fullPath, .file reference span⟩ <;>
                rw [made] at whole <;> exact whole

theorem endsIn_applyToNodes : ∀ nodes : List Node,
    Filtering.EndsIn (set.applyToNodes nodes) (set.run.onNodes nodes)
  | [] => by
      unfold applyToNodes FilterRun.onNodes
      exact .pure _
  | node :: rest => by
      unfold applyToNodes FilterRun.onNodes
      exact (endsIn_applyToNode node).bind fun node => (endsIn_applyToNodes rest).bind fun rest =>
        .pure _

end

theorem outcome_apply_eq (document : Document) (events : Array Event) :
    outcome (set.apply document events) = set.run.onDocument document := by
  have ends := set.endsIn_applyToNodes document.nodes { events := events }
  unfold FilterRun.onDocument
  rw [← ends]
  unfold apply
  cases set.applyToNodes document.nodes { events := events } <;> rfl

end FilterSet

/-! ### Where filtering fails -/

namespace FilterRun

variable {run : FilterRun} {fault : Diagnostic FilterFault}

theorem onNodes_append_cons {before after filtered : List Node} {inner : Node}
    (done : run.onNodes before = .ok filtered) (fails : run.onNode inner = .error fault) :
    run.onNodes (before ++ inner :: after) = .error fault := by
  induction before generalizing filtered with
  | nil =>
      rw [List.nil_append, onNodes, fails]
      rfl
  | cons node rest ih =>
      rw [onNodes] at done
      rw [List.cons_append, onNodes]
      cases first : run.onNode node with
      | error other =>
          rw [first] at done
          cases done
      | ok node =>
          cases others : run.onNodes rest with
          | error other =>
              rw [first, others] at done
              cases done
          | ok rest =>
              rw [ih others]
              rfl

theorem throughAll_cons (reference : Reference) (span : Span) (entry : IncludeFilter)
    (inner : List IncludeFilter) :
    run.throughAll reference span (entry :: inner) =
      run.throughAll reference span inner >>= fun input =>
        run.pass reference.fullPath input entry :=
  List.foldrM_cons ..

theorem throughAll_append_cons {reference : Reference} {span : Span} {entry : IncludeFilter}
    {inner : List IncludeFilter} {input : FilterInput} (outer : List IncludeFilter)
    (done : run.throughAll reference span inner = .ok input)
    (fails : run ⟨entry, reference.fullPath, input⟩ = .error fault) :
    run.throughAll reference span (outer ++ entry :: inner) = .error fault := by
  induction outer with
  | nil =>
      rw [List.nil_append, throughAll_cons, done]
      change run.pass reference.fullPath input entry = .error fault
      rw [pass, fails]
      rfl
  | cons other rest ih =>
      rw [List.cons_append, throughAll_cons, ih]
      rfl

/-- If a use that is reached fails then filtering fails in the same way. -/
theorem Reaches.fails {use : FilterUse} {node : Node} (reaches : run.Reaches use node)
    (fails : run use = .error fault) : run.onNode node = .error fault := by
  induction reaches with
  | @inside node inner before after filtered body done _ ih =>
      have failed : run.onNodes (before ++ inner :: after) = .error fault :=
        onNodes_append_cons done ih
      cases node with
      | leaf span content => cases body
      | branch span label children =>
          obtain rfl : children = before ++ inner :: after := Option.some.inj body
          rw [onNode, failed]
          rfl
      | file span use reference loaded children =>
          cases use with
          | inheritance => cases body
          | raw filters => cases body
          | inclusion place =>
              obtain rfl : children = before ++ inner :: after := Option.some.inj body
              rw [onNode, failed]
              rfl
  | filter done same =>
      subst same
      rw [onNode, done]
      change (run _ >>= _) = .error fault
      rw [fails]
      rfl
  | file done same =>
      subst same
      rw [onNode, throughAll_append_cons _ done fails]
      rfl

theorem exists_of_throughAll_eq_error {reference : Reference} {span : Span}
    {filters : List IncludeFilter}
    (failed : run.throughAll reference span filters = .error fault) :
    ∃ outer entry inner input, filters = outer ++ entry :: inner ∧
      run.throughAll reference span inner = .ok input ∧
      run ⟨entry, reference.fullPath, input⟩ = .error fault := by
  induction filters with
  | nil => cases failed
  | cons entry inner ih =>
      rw [throughAll_cons] at failed
      cases done : run.throughAll reference span inner with
      | error other =>
          rw [done] at failed
          cases failed
          rcases ih done with ⟨outer, found, rest, input, rfl, passed, fails⟩
          exact ⟨entry :: outer, found, rest, input, rfl, passed, fails⟩
      | ok input =>
          refine ⟨[], entry, inner, input, rfl, done, ?_⟩
          rw [done] at failed
          change (run _).map _ = _ at failed
          cases made : run ⟨entry, reference.fullPath, input⟩ with
          | error other =>
              rw [made] at failed
              cases failed
              rfl
          | ok text =>
              rw [made] at failed
              cases failed

mutual

/-- Filtering fails only if a use that is reached does. -/
theorem exists_reaches_of_onNode_eq_error : ∀ {node : Node}, run.onNode node = .error fault →
    ∃ use, run.Reaches use node ∧ run use = .error fault
  | .leaf .., failed => by
      rw [onNode] at failed
      cases failed
  | .branch span label children, failed => by
      rw [onNode] at failed
      cases done : run.onNodes children with
      | error other =>
          rw [done] at failed
          cases failed
          rcases exists_reached_of_onNodes_eq_error done with
            ⟨before, inner, after, filtered, rfl, passed, use, reaches, fails⟩
          exact ⟨use, .inside rfl passed reaches, fails⟩
      | ok filtered =>
          rw [done] at failed
          cases label
          case filter name attributes body =>
            refine ⟨_, .filter done rfl, ?_⟩
            change (run _ >>= _) = .error fault at failed
            cases made : run ⟨⟨span, name, attributes⟩, span.file, .text (bodyText filtered)⟩ with
            | error other =>
                rw [made] at failed
                cases failed
                rfl
            | ok text =>
                rw [made] at failed
                cases failed
          all_goals cases failed
  | .file span (.inclusion body) reference loaded children, failed => by
      rw [onNode] at failed
      cases done : run.onNodes children with
      | ok filtered =>
          rw [done] at failed
          cases failed
      | error other =>
          rw [done] at failed
          cases failed
          rcases exists_reached_of_onNodes_eq_error done with
            ⟨before, inner, after, filtered, rfl, passed, use, reaches, fails⟩
          exact ⟨use, .inside rfl passed reaches, fails⟩
  | .file span .inheritance reference loaded children, failed => by
      rw [onNode] at failed
      cases failed
  | .file span (.raw filters) reference loaded children, failed => by
      rw [onNode] at failed
      cases done : run.throughAll reference span filters with
      | ok input =>
          rw [done] at failed
          cases failed
      | error other =>
          rw [done] at failed
          cases failed
          rcases exists_of_throughAll_eq_error done with
            ⟨outer, entry, inner, input, rfl, passed, fails⟩
          exact ⟨_, .file passed rfl, fails⟩

theorem exists_reached_of_onNodes_eq_error : ∀ {nodes : List Node},
    run.onNodes nodes = .error fault →
    ∃ before inner after filtered, nodes = before ++ inner :: after ∧
      run.onNodes before = .ok filtered ∧ ∃ use, run.Reaches use inner ∧ run use = .error fault
  | [], failed => by
      rw [onNodes] at failed
      cases failed
  | node :: rest, failed => by
      rw [onNodes] at failed
      cases first : run.onNode node with
      | error other =>
          rw [first] at failed
          cases failed
          exact ⟨[], node, rest, [], rfl, rfl, exists_reaches_of_onNode_eq_error first⟩
      | ok made =>
          rw [first] at failed
          cases others : run.onNodes rest with
          | ok filtered =>
              rw [others] at failed
              cases failed
          | error other =>
              rw [others] at failed
              cases failed
              rcases exists_reached_of_onNodes_eq_error others with
                ⟨before, inner, after, filtered, rfl, passed, found⟩
              refine ⟨node :: before, inner, after, made :: filtered, rfl, ?_, found⟩
              rw [onNodes, first, passed]
              rfl

end

/-- Filtering a document fails exactly if a use that is reached does. -/
theorem onDocument_eq_error_iff {document : Document} :
    run.onDocument document = .error fault ↔
      ∃ use, run.Reached document use ∧ run use = .error fault := by
  have failed : run.onDocument document = .error fault ↔
      run.onNodes document.nodes = .error fault := by
    unfold onDocument
    cases run.onNodes document.nodes <;> simp [bind, Except.bind, pure, Except.pure]
  rw [failed]
  constructor
  · intro failed
    rcases exists_reached_of_onNodes_eq_error failed with
      ⟨before, inner, after, filtered, nodes, passed, use, reaches, fails⟩
    exact ⟨use, ⟨before, inner, after, filtered, nodes, passed, reaches⟩, fails⟩
  · rintro ⟨use, ⟨before, inner, after, filtered, nodes, passed, reaches⟩, fails⟩
    rw [nodes]
    exact onNodes_append_cons passed (reaches.fails fails)

end FilterRun

end Offside
