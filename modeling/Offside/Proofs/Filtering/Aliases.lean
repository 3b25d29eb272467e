import Mathlib.Data.List.Induction
import Offside.Proofs.Filtering.Uses

/-!
# Names that stand for other filters

A use of an alias runs the filter of the name that the alias stands for. The options come from four
layers: the file, the attributes of the use, the defaults of the alias, and the defaults of the name
that it stands for. An alias without defaults of its own can thus be replaced by that name. A name
that stands for another alias cannot be used.
-/

namespace Offside

open Computing

/-! ### Options in layers -/

namespace FilterOptions

variable {options defaults : FilterOptions} {name key : String} {value : AttributeValue}

theorem lookup_entry (other : String) (found : AttributeValue)
    (rest : List (String × AttributeValue)) :
    ((other, found) :: rest).lookup key = if key = other then some found else rest.lookup key := by
  rw [List.lookup_cons]
  by_cases same : key = other
  · simp [same]
  · rw [beq_eq_false_iff_ne.mpr same, if_neg same]

theorem lookup_insertEntry (entries : List (String × AttributeValue)) :
    (insertEntry name value entries).lookup key =
      if key = name then some value else entries.lookup key := by
  induction entries with
  | nil => exact lookup_entry name value []
  | cons entry rest ih =>
      rcases entry with ⟨other, found⟩
      unfold insertEntry
      split
      · next here =>
          subst here
          simp only [lookup_entry]
          split <;> rfl
      · next apart =>
          split
          · exact lookup_entry name value ((other, found) :: rest)
          · simp only [lookup_entry, ih]
            by_cases same : key = name
            · subst same
              rw [if_neg apart, if_pos rfl, if_pos rfl]
            · simp only [if_neg same]

theorem get?_insert :
    (options.insert name value).get? key = if key = name then some value else options.get? key :=
  lookup_insertEntry options.entries

theorem get?_insertNew :
    (options.insertNew name value).get? key =
      (options.get? key <|> if key = name then some value else none) := by
  unfold insertNew
  cases known : options.get? name with
  | some found =>
      by_cases same : key = name
      · subst same
        simp [known]
      · simp [same]
  | none =>
      simp only [get?_insert]
      by_cases same : key = name
      · subst same
        simp [known]
      · simp [same]

/-- What is set stays, and the first of the defaults counts for what is not. -/
theorem get?_withDefaults :
    (options.withDefaults defaults).get? key = (options.get? key <|> defaults.get? key) := by
  rcases defaults with ⟨entries⟩
  change (entries.foldl _ options).get? key = (options.get? key <|> entries.lookup key)
  induction entries generalizing options with
  | nil => simp
  | cons entry rest ih =>
      rw [List.foldl_cons, ih, get?_insertNew, lookup_entry]
      cases options.get? key with
      | some found => simp
      | none => by_cases same : key = entry.1 <;> simp [same]

/-- Defaults that are all set change nothing. -/
theorem withDefaults_eq_self
    (known : ∀ entry ∈ defaults.entries, (options.get? entry.1).isSome) :
    options.withDefaults defaults = options := by
  rcases defaults with ⟨entries⟩
  change entries.foldl _ options = options
  induction entries with
  | nil => rfl
  | cons entry rest ih =>
      rw [List.forall_mem_cons] at known
      rcases Option.isSome_iff_exists.mp known.1 with ⟨found, isFound⟩
      rw [List.foldl_cons, insertNew, isFound]
      exact ih known.2

theorem withDefaults_withDefaults :
    (options.withDefaults defaults).withDefaults defaults = options.withDefaults defaults := by
  refine withDefaults_eq_self fun entry inside => ?_
  rw [get?_withDefaults]
  have known : (defaults.get? entry.1).isSome :=
    List.lookup_isSome_iff.mpr ⟨entry, inside, beq_self_eq_true _⟩
  cases options.get? entry.1 with
  | some found => rfl
  | none => exact known

/-- The last of the attributes of a name counts. -/
theorem get?_ofAttributes (attributes : List Attribute) :
    (ofAttributes attributes).get? key =
      (attributes.filter (·.name = key)).getLast?.map (·.value) := by
  induction attributes using List.reverseRecOn with
  | nil => rfl
  | append_singleton attributes entry ih =>
      unfold ofAttributes at ih ⊢
      rw [List.foldl_append, List.foldl_cons, List.foldl_nil, get?_insert, ih, List.filter_append]
      by_cases same : key = entry.name
      · subst same
        simp
      · simp [same, Ne.symm same]

end FilterOptions

/-! ### Another name in the place of a filter's -/

/-- The filter of an include, called by another name if it is called by the old one. -/
def IncludeFilter.renameFilter (old new : String) (entry : IncludeFilter) : IncludeFilter :=
  { entry with name := if entry.name = old then new else entry.name }

/-- The use of a filter under another name, if it is called by the old one. -/
def FilterUse.renameFilter (old new : String) (use : FilterUse) : FilterUse :=
  { use with entry := use.entry.renameFilter old new }

/-- The label of a filter with another name, if it has the old one. -/
def Label.renameFilter (old new : String) : Label → Label
  | .filter name attributes body => .filter (if name = old then new else name) attributes body
  | label => label

namespace Node

variable (old new : String)

mutual

/-- The node with another name for a filter, wherever that is used in it. -/
def renameFilter : Node → Node
  | .leaf span content => .leaf span content
  | .branch span label children =>
      .branch span (label.renameFilter old new) (renameFilters children)
  | .file span (.inclusion body) reference loaded children =>
      .file span (.inclusion body) reference loaded (renameFilters children)
  | .file span .inheritance reference loaded children =>
      .file span .inheritance reference loaded children
  | .file span (.raw filters) reference loaded children =>
      .file span (.raw (filters.map (.renameFilter old new))) reference loaded children

/-- The nodes with another name for a filter, wherever that is used in them. -/
def renameFilters : List Node → List Node
  | [] => []
  | node :: rest => renameFilter node :: renameFilters rest

end

end Node

/-- The document with another name for a filter, wherever that is used in it. -/
def Document.renameFilter (old new : String) (document : Document) : Document :=
  { document with nodes := Node.renameFilters old new document.nodes }

namespace FilterRun

variable (run : FilterRun) (old new : String)

/-- How uses end under another name. -/
def renamed : FilterRun := fun use =>
  run (use.renameFilter old new)

theorem throughAll_renamed (reference : Reference) (span : Span) (filters : List IncludeFilter) :
    run.throughAll reference span (filters.map (.renameFilter old new)) =
      (run.renamed old new).throughAll reference span filters := by
  induction filters with
  | nil => rfl
  | cons entry inner ih =>
      rw [List.map_cons, throughAll_cons, throughAll_cons, ih]
      rfl

mutual

theorem onNode_renameFilter : ∀ node : Node,
    run.onNode (node.renameFilter old new) = (run.renamed old new).onNode node
  | .leaf .. => by
      unfold Node.renameFilter onNode
      rfl
  | .branch span label children => by
      unfold Node.renameFilter onNode
      rw [onNodes_renameFilters children]
      cases label <;> rfl
  | .file span use reference loaded children => by
      cases use with
      | inheritance =>
          unfold Node.renameFilter onNode
          rfl
      | inclusion body =>
          unfold Node.renameFilter onNode
          rw [onNodes_renameFilters children]
      | raw filters =>
          unfold Node.renameFilter onNode
          rw [throughAll_renamed]
          cases filters with
          | nil => rfl
          | cons entry inner =>
              -- Behind a filter there is a text, in the place of which no filters are left.
              rw [throughAll_cons]
              cases throughAll _ reference span inner with
              | error fault => rfl
              | ok input =>
                  change ((Except.map _ _).map _) = ((Except.map _ _).map _)
                  cases (run.renamed old new) ⟨entry, reference.fullPath, input⟩ <;> rfl

theorem onNodes_renameFilters : ∀ nodes : List Node,
    run.onNodes (Node.renameFilters old new nodes) = (run.renamed old new).onNodes nodes
  | [] => by
      unfold Node.renameFilters onNodes
      rfl
  | node :: rest => by
      unfold Node.renameFilters onNodes
      rw [onNode_renameFilter node, onNodes_renameFilters rest]

end

theorem onDocument_renameFilter (document : Document) :
    run.onDocument (document.renameFilter old new) = (run.renamed old new).onDocument document := by
  unfold onDocument Document.renameFilter
  rw [onNodes_renameFilters]

/-! ### Uses that give the same texts -/

variable {run old new} {other : FilterRun}

/-- Both end with the same value, or both fail, perhaps with different faults. -/
def Matches {α : Type} (left right : Except (Diagnostic FilterFault) α) : Prop :=
  left.toOption = right.toOption

theorem Matches.bind {α β : Type} {left right : Except (Diagnostic FilterFault) α}
    {leftNext rightNext : α → Except (Diagnostic FilterFault) β} (first : Matches left right)
    (second : ∀ value, Matches (leftNext value) (rightNext value)) :
    Matches (left >>= leftNext) (right >>= rightNext) := by
  cases left with
  | error fault =>
      cases right with
      | error other => rfl
      | ok value => cases first
  | ok value =>
      cases right with
      | error other => cases first
      | ok found =>
          cases first
          exact second value

theorem Matches.map {α β : Type} {left right : Except (Diagnostic FilterFault) α}
    (first : Matches left right) (change : α → β) :
    Matches (left.map change) (right.map change) := by
  have mapped := first.bind fun value => (rfl : Matches (.ok (change value)) (.ok (change value)))
  cases left <;> cases right <;> exact mapped

theorem matches_throughAll (same : ∀ use, Matches (run use) (other use)) (reference : Reference)
    (span : Span) (filters : List IncludeFilter) :
    Matches (run.throughAll reference span filters) (other.throughAll reference span filters) := by
  induction filters with
  | nil => rfl
  | cons entry inner ih =>
      rw [throughAll_cons, throughAll_cons]
      exact ih.bind fun input => (same _).map FilterInput.text

mutual

theorem matches_onNode (same : ∀ use, Matches (run use) (other use)) : ∀ node : Node,
    Matches (run.onNode node) (other.onNode node)
  | .leaf .. => by
      unfold onNode
      rfl
  | .branch span label children => by
      unfold onNode
      refine (matches_onNodes same children).bind fun filtered => ?_
      cases label
      case filter => exact (same _).bind fun text => rfl
      all_goals rfl
  | .file span use reference loaded children => by
      unfold onNode
      cases use with
      | inheritance => rfl
      | inclusion body => exact (matches_onNodes same children).bind fun filtered => rfl
      | raw filters => exact (matches_throughAll same reference span filters).map _

theorem matches_onNodes (same : ∀ use, Matches (run use) (other use)) : ∀ nodes : List Node,
    Matches (run.onNodes nodes) (other.onNodes nodes)
  | [] => by
      unfold onNodes
      rfl
  | node :: rest => by
      unfold onNodes
      exact (matches_onNode same node).bind fun node =>
        (matches_onNodes same rest).bind fun rest => rfl

end

theorem matches_onDocument (same : ∀ use, Matches (run use) (other use)) (document : Document) :
    Matches (run.onDocument document) (other.onDocument document) :=
  (matches_onNodes same document.nodes).bind fun _ => rfl

end FilterRun

/-- The name of a filter has no part in what it makes of its input. -/
theorem FilterUse.matches_through (use other : FilterUse) (input : use.input = other.input)
    (filter : Filter) (options : FilterOptions) :
    FilterRun.Matches (use.through filter options) (other.through filter options) := by
  have accepted (result : Except String String) {fault fault' : String → Diagnostic FilterFault} :
      FilterRun.Matches (result.mapError fault) (result.mapError fault') := by
    cases result <;> rfl
  unfold through
  rw [input]
  cases other.input with
  | text text => exact accepted _
  | file reference span =>
      dsimp only
      split
      · cases reference.bytes with
        | none => rfl
        | some bytes => exact accepted _
      · cases reference.contents with
        | none => rfl
        | some contents => exact accepted _

/-! ### Aliases -/

namespace FilterSet

variable (set : FilterSet) (name target : String)

/-- The value of an option when the file is left out: that of the last attribute of its name, or the
default for the name of the filter, or the default for the name that this one stands for. -/
def layered (attributes : List Attribute) (key : String) : Option AttributeValue :=
  (attributes.filter (·.name = key)).getLast?.map (·.value) <|>
    (set.defaultsOf name).get? key <|> (set.defaultsOf target).get? key

/-- How uses end when those of a name run the filter of another one, with the options of both. -/
def runAs : FilterRun := fun use =>
  if use.entry.name = name then
    match set.filters.lookup target with
    | none => .error (use.fault (.unknown name))
    | some filter => use.through filter (set.options name target use.entry.attributes use.file)
  else
    set.run use

theorem get?_options (attributes : List Attribute) (file : Option String) (key : String) :
    (set.options name target attributes file).get? key =
      ((if key = "filename" then file.map .text else none) <|>
        set.layered name target attributes key) := by
  have given : ((FilterOptions.ofAttributes attributes).withDefaults (set.defaultsOf name)
      |>.withDefaults (set.defaultsOf target)).get? key =
        set.layered name target attributes key := by
    rw [FilterOptions.get?_withDefaults, FilterOptions.get?_withDefaults,
      FilterOptions.get?_ofAttributes, layered]
    cases (attributes.filter (·.name = key)).getLast? <;> rfl
  unfold options
  cases file with
  | none => simpa using given
  | some path =>
      dsimp only
      rw [FilterOptions.get?_insert, given]
      by_cases isFile : key = "filename" <;> simp [isFile]

/-- Without defaults of the alias the options are those of the name that it stands for. -/
theorem options_of_noDefaults (none : (set.defaultsOf name).entries = [])
    (attributes : List Attribute) (file : Option String) :
    set.options target target attributes file = set.options name target attributes file := by
  have unchanged : (FilterOptions.ofAttributes attributes).withDefaults (set.defaultsOf name) =
      FilterOptions.ofAttributes attributes :=
    FilterOptions.withDefaults_eq_self (by simp [none])
  simp only [options, unchanged, FilterOptions.withDefaults_withDefaults]

variable {set name target}

theorem find_of_resolve (resolves : set.resolve name = .ok target) :
    set.find name =
      match set.filters.lookup target with
      | none => .error (.unknown name)
      | some filter => .ok (target, filter) := by
  cases found : set.filters.lookup target <;> simp [find, resolves, found]

theorem resolve_of_alias (isAlias : set.aliases.lookup name = some target)
    (direct : set.aliases.lookup target = none) : set.resolve name = .ok target := by
  simp only [resolve, isAlias, direct]

theorem resolve_of_direct (direct : set.aliases.lookup target = none) :
    set.resolve target = .ok target := by
  simp only [resolve, direct]

theorem run_eq_runAs (isAlias : set.aliases.lookup name = some target)
    (direct : set.aliases.lookup target = none) : set.run = set.runAs name target := by
  funext use
  unfold runAs
  split
  · next called =>
      unfold run
      rw [called, find_of_resolve (resolve_of_alias isAlias direct)]
      cases set.filters.lookup target <;> rfl
  · rfl

/-- Under the name that an alias without defaults stands for, each use gives the same text. -/
theorem matches_renamed (isAlias : set.aliases.lookup name = some target)
    (direct : set.aliases.lookup target = none) (none : (set.defaultsOf name).entries = [])
    (use : FilterUse) : FilterRun.Matches (set.run.renamed name target use) (set.run use) := by
  by_cases called : use.entry.name = name
  · have under : set.run (use.renameFilter name target) =
        match set.filters.lookup target with
        | .none => .error ((use.renameFilter name target).fault (.unknown target))
        | some filter => (use.renameFilter name target).through filter
            (set.options name target use.entry.attributes use.file) := by
      rw [← options_of_noDefaults set name target none]
      simp only [run, FilterUse.renameFilter, IncludeFilter.renameFilter, called, if_true,
        find_of_resolve (resolve_of_direct direct)]
      cases set.filters.lookup target <;> rfl
    rw [FilterRun.renamed, under, run_eq_runAs isAlias direct, runAs, if_pos called]
    cases set.filters.lookup target with
    | none => rfl
    | some filter =>
        exact FilterUse.matches_through (use.renameFilter name target) use rfl filter _
  · have same : use.renameFilter name target = use := by
      simp only [FilterUse.renameFilter, IncludeFilter.renameFilter, called, if_false]
    rw [FilterRun.renamed, same]
    rfl

theorem eq_of_find_eq_aliasChain {used further : String}
    (failed : set.find used = .error (.aliasChain name target further)) : used = name := by
  unfold find at failed
  cases resolved : set.resolve used with
  | ok registered =>
      simp only [resolved] at failed
      cases known : set.filters.lookup registered <;> simp [known] at failed
  | error cause =>
      simp only [resolved, Except.error.injEq] at failed
      subst failed
      unfold resolve at resolved
      split at resolved
      · cases resolved
      · split at resolved
        · cases resolved
        · cases resolved
          rfl

theorem cause_ne_aliasChain_of_through {use : FilterUse} {filter : Filter} {options : FilterOptions}
    {further : String} {span : Span} :
    use.through filter options ≠ .error ⟨.aliasChain name target further, span, none⟩ := by
  have accepted (result : Except String String) :
      result.mapError (fun message => use.fault (.refused use.entry.name message)) ≠
        .error ⟨.aliasChain name target further, span, none⟩ := by
    cases result <;> simp [Except.mapError, FilterUse.fault]
  unfold FilterUse.through
  cases use.input with
  | text text => exact accepted _
  | file reference place =>
      dsimp only
      split
      · cases reference.bytes with
        | none => simp
        | some bytes => exact accepted _
      · cases reference.contents with
        | none => simp
        | some contents => exact accepted _

/-- A use fails because of a chain of aliases exactly if it is one of the first name in it. -/
theorem run_eq_aliasChain_iff {further : String} {span : Span} {use : FilterUse}
    (isAlias : set.aliases.lookup name = some target)
    (chain : set.aliases.lookup target = some further) :
    set.run use = .error ⟨.aliasChain name target further, span, none⟩ ↔
      use.entry.name = name ∧ use.entry.span = span := by
  constructor
  · intro failed
    unfold run at failed
    split at failed
    · next cause unfound =>
        simp only [FilterUse.fault, Except.error.injEq, Diagnostic.mk.injEq] at failed
        rcases failed with ⟨rfl, place, -⟩
        exact ⟨eq_of_find_eq_aliasChain unfound, place⟩
    · exact absurd failed cause_ne_aliasChain_of_through
  · rintro ⟨rfl, rfl⟩
    have unfound :
        set.find use.entry.name = .error (.aliasChain use.entry.name target further) := by
      simp only [find, resolve, isAlias, chain]
    simp only [run, unfound]
    rfl

/-- Each use of an alias of a filter, wherever it stands in a document, runs that filter, with
options in layers: the file of the use, the last attribute of each name, the defaults of the alias,
and those of the filter. If the alias has no defaults then the document with the name of the filter
in its place is filtered with the same success and the same result. But if the alias stands for
another alias then filtering fails for that cause exactly where a use of it is reached. -/
theorem alias_runs_target {set : FilterSet} {name target : String}
    (isAlias : set.aliases.lookup name = some target) :
    (set.aliases.lookup target = none →
      (∀ document events,
        outcome (set.apply document events) = (set.runAs name target).onDocument document) ∧
      (∀ attributes file key, (set.options name target attributes file).get? key =
        ((if key = "filename" then file.map .text else none) <|>
          set.layered name target attributes key)) ∧
      ((set.defaultsOf name).entries = [] → ∀ document events others,
        (outcome (set.apply (document.renameFilter name target) others)).toOption =
          (outcome (set.apply document events)).toOption)) ∧
    (∀ further, set.aliases.lookup target = some further → ∀ document events span,
      outcome (set.apply document events) =
          .error ⟨.aliasChain name target further, span, none⟩ ↔
        ∃ use, set.run.Reached document use ∧ use.entry.name = name ∧ use.entry.span = span) := by
  refine ⟨fun direct => ⟨fun document events => ?_, set.get?_options name target, ?_⟩, ?_⟩
  · rw [outcome_apply_eq, run_eq_runAs isAlias direct]
  · intro noDefaults document events others
    rw [outcome_apply_eq, outcome_apply_eq, FilterRun.onDocument_renameFilter]
    exact FilterRun.matches_onDocument (matches_renamed isAlias direct noDefaults) document
  · intro further chain document events span
    rw [outcome_apply_eq, FilterRun.onDocument_eq_error_iff]
    simp only [run_eq_aliasChain_iff isAlias chain]

/-- An alias of a filter that asks for an option, and an alias of that alias. -/
theorem alias_runs_target_marked :
    let marked : Filter := .text fun text options =>
      if options.get? "mark" = some .present then .ok text else .error "no mark"
    let set : FilterSet := {
      filters := [("marked", marked)]
      aliases := [("twice", "once"), ("once", "marked")]
      defaults := [("marked", ⟨[("mark", .present)]⟩)] }
    let place : Span := ⟨none, 1, 1⟩
    let document (name : String) : Document :=
      { nodes := [.branch place (.filter name [] {}) [.leaf {} (.text "a" false)]] }
    set.aliases.lookup "once" = some "marked" ∧ set.aliases.lookup "marked" = none ∧
      (set.defaultsOf "once").entries = [] ∧ set.aliases.lookup "twice" = some "once" ∧
      (set.options "once" "marked" [] none).get? "mark" = some .present ∧
      (outcome (set.apply ((document "once").renameFilter "once" "marked") #[])).toOption =
        some { nodes := [.leaf place (.text "a" false)] } ∧
      outcome (set.apply (document "twice") #[]) =
        .error ⟨.aliasChain "twice" "once" "marked", place, none⟩ := by
  intro marked set place document
  have once : set.aliases.lookup "once" = some "marked" := rfl
  have direct : set.aliases.lookup "marked" = none := rfl
  have noDefaults : (set.defaultsOf "once").entries = [] := rfl
  have twice : set.aliases.lookup "twice" = some "once" := rfl
  rcases (alias_runs_target once).1 direct with ⟨-, options, replaced⟩
  have reached : set.run.Reached (document "twice")
      ⟨⟨place, "twice", []⟩, none, .text (bodyText [.leaf {} (.text "a" false)])⟩ :=
    ⟨[], _, [], [], rfl, rfl, .filter rfl rfl⟩
  exact ⟨once, direct, noDefaults, twice, options [] none "mark",
    replaced noDefaults (document "once") #[] #[],
    ((alias_runs_target twice).2 "marked" once (document "twice") #[] place).mpr
      ⟨_, reached, rfl, rfl⟩⟩

end FilterSet

end Offside
