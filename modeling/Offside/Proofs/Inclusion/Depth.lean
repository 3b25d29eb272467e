import Offside.Proofs.Inclusion.Delivery

/-!
# How deep files are loaded

Templates may include each other, and themselves. Loading counts how deep it is, and gives up where
a template would be deeper than allowed; so it ends, whatever the files are. It gives up in no other
case: what decides is the length of the chains of templates that refer to each other. A file that is
not read as a template is part of no chain.
-/

namespace Offside

open Computing

/-! ### Counting upward -/

/-- What loading some nodes at a depth results in: the templates among their files are loaded one
level deeper, unless the depth is at its limit already. -/
inductive Loads (options : LoadOptions) : (depth : Nat) → Origin → List Node → LoadState →
    EStateM.Result Failure LoadState (List Node) → Prop
  | atLimit {depth : Nat} {origin : Origin} {nodes : List Node} {state : LoadState} :
      options.maxDepth ≤ depth →
        Loads options depth origin nodes state (loadNodes options none origin nodes state)
  | belowLimit {depth : Nat} {origin : Origin} {nodes : List Node} {state : LoadState}
      (deeper : Origin → List Node → Loading (List Node)) :
      depth < options.maxDepth →
        (∀ origin nodes state,
          Loads options (depth + 1) origin nodes state (deeper origin nodes state)) →
        Loads options depth origin nodes state (loadNodes options (some deeper) origin nodes state)

section

variable {options : LoadOptions}

/-- There is a result at every depth: what is left up to the limit bounds the levels. -/
theorem loads_loadNodes {remaining depth : Nat} (left : depth + remaining = options.maxDepth)
    (origin : Origin) (nodes : List Node) (state : LoadState) :
    Loads options depth origin nodes state
      (loadNodes options (loadLevels options remaining) origin nodes state) := by
  induction remaining generalizing depth origin nodes state with
  | zero => exact .atLimit (Nat.le_of_eq left.symm)
  | succ remaining ih => exact .belowLimit _ (by omega) (ih (by omega))

/-- There is only one result. -/
theorem Loads.eq {depth : Nat} {origin : Origin} {nodes : List Node} {state : LoadState}
    {result : EStateM.Result Failure LoadState (List Node)}
    (loads : Loads options depth origin nodes state result) {remaining : Nat}
    (left : depth + remaining = options.maxDepth) :
    result = loadNodes options (loadLevels options remaining) origin nodes state := by
  induction loads generalizing remaining with
  | atLimit limit =>
      obtain rfl : remaining = 0 := by omega
      rfl
  | belowLimit deeper _ _ ih =>
      obtain ⟨fewer, rfl⟩ : ∃ fewer, remaining = fewer + 1 := ⟨remaining - 1, by omega⟩
      have same : deeper = loadNodes options (loadLevels options fewer) := by
        funext origin nodes state
        exact ih origin nodes state (by omega)
      rw [same]
      rfl

end

/-! ### Chains of templates -/

/-- The file of a reference is still to be loaded. -/
def Reference.Waits (reference : Reference) : Prop :=
  reference.contents = none

section

variable (options : LoadOptions) (counts : Reference → Prop)

/-- The text of a file is a template, whatever was noted before. -/
def LoadOptions.Parses (path : String) (bytes : List UInt8) (document : Document) : Prop :=
  ∀ events, outcome (Document.ofSource options.extensions (some path) (Text.decodeLossy bytes)
    events) = .ok document

namespace Node

/-- A node of a file refers to another template, by a reference that counts. -/
inductive Enters (file : Option String) : Node → String → Document → Prop
  | intro {span : Span} {use : FileUse} {reference : Reference} {loaded children : List Node}
      {path : String} {bytes : List UInt8} {document : Document} :
      (∀ filters, use ≠ .raw filters) → counts reference →
        reference.LeadsTo options.resolve options.read file path bytes →
          options.Parses path bytes document →
            Enters file (.file span use reference loaded children) path document

/-- A chain of references, each in the template to which the one before it refers; the first one
is in some nodes of a file. -/
inductive Chain : (file : Option String) → (nodes : List Node) → (length : Nat) → Prop
  | stop {file : Option String} {nodes : List Node} : Chain file nodes 0
  | next {file : Option String} {nodes : List Node} {node : Node} {path : String}
      {document : Document} {length : Nat} :
      node ∈ walkAll nodes → node.Enters options counts file path document →
        Chain (some path) document.nodes length → Chain file nodes (length + 1)

/-- A node of a template to which a chain of references leads from a node of a file. -/
inductive Reaches : (file : Option String) → Node → (reached : Option String) → Node → Prop
  | here {file : Option String} {node : Node} : Reaches file node file node
  | next {file reached : Option String} {node inner other : Node} {path : String}
      {document : Document} :
      node.Enters options counts file path document → inner ∈ walkAll document.nodes →
        Reaches (some path) inner reached other → Reaches file node reached other

/-- If the node of a file has a reference that counts, then that leads to a file, and to a template
if it is to be read as one. -/
def Leads (file : Option String) (node : Node) : Prop :=
  ∀ span use reference loaded children, node = .file span use reference loaded children →
    counts reference → ∃ path bytes,
      reference.LeadsTo options.resolve options.read file path bytes ∧
        ((∀ filters, use ≠ .raw filters) → ∃ document, options.Parses path bytes document)

/-- All references that are reached from some nodes of a file lead to files. -/
def AllLead (file : Option String) (nodes : List Node) : Prop :=
  ∀ node ∈ walkAll nodes, ∀ reached other, Reaches options counts file node reached other →
    other.Leads options counts reached

end Node

end

/-- Loading has reached the limit. -/
def Failure.IsTooDeep (limit : Nat) (failure : Failure) : Prop :=
  ∃ span source, failure = .load ⟨.tooDeep limit, span, source⟩

section

variable {options : LoadOptions}

/-- What a node of a file refers to is one end of a chain of a certain length. -/
def Node.Overruns (options : LoadOptions) (length : Nat) (file : Option String) (node : Node) :
    Prop :=
  ∃ path document, node.Enters options Reference.Waits file path document ∧
    Chain options Reference.Waits (some path) document.nodes length

theorem Node.chain_succ_iff {length : Nat} {file : Option String} {nodes : List Node} :
    Chain options Reference.Waits file nodes (length + 1) ↔
      ∃ node ∈ walkAll nodes, node.Overruns options length file := by
  constructor
  · intro chain
    cases chain with
    | next inside enters chain => exact ⟨_, inside, _, _, enters, chain⟩
  · rintro ⟨node, inside, path, document, enters, chain⟩
    exact .next inside enters chain

/-- There is one template to which a node refers. -/
theorem Node.Enters.unique {counts : Reference → Prop} {file : Option String} {node : Node}
    {path other : String} {document otherDocument : Document}
    (enters : node.Enters options counts file path document)
    (entersOther : node.Enters options counts file other otherDocument) :
    other = path ∧ otherDocument = document := by
  rcases enters with ⟨-, -, ⟨resolves, reads⟩, parses⟩
  rcases entersOther with ⟨-, -, ⟨resolvesOther, readsOther⟩, parsesOther⟩
  obtain rfl := Except.ok.inj (resolves.symm.trans resolvesOther)
  obtain rfl := Except.ok.inj (reads.symm.trans readsOther)
  exact ⟨rfl, Except.ok.inj ((parsesOther #[]).symm.trans (parses #[]))⟩

theorem Node.Enters.leads {counts : Reference → Prop} {file : Option String} {node : Node}
    {path : String} {document : Document}
    (enters : node.Enters options counts file path document) : node.Leads options counts file := by
  rintro span use reference loaded children rfl _
  rcases enters with ⟨-, -, found, parses⟩
  exact ⟨path, _, found, fun _ => ⟨document, parses⟩⟩

/-- All references lead to files if those of some nodes do, and no template that is reached from
these has other nodes. -/
theorem Node.allLead_of_invariant {counts : Reference → Prop} (holds : Option String → Node → Prop)
    (closed : ∀ file node path document, holds file node →
      node.Enters options counts file path document →
        ∀ inner ∈ walkAll document.nodes, holds (some path) inner)
    (leads : ∀ file node, holds file node → node.Leads options counts file)
    {file : Option String} {nodes : List Node} (start : ∀ node ∈ walkAll nodes, holds file node) :
    AllLead options counts file nodes := by
  intro node inside reached other reaches
  have first := start node inside
  clear inside start
  induction reaches with
  | here => exact leads _ _ first
  | next enters inner _ ih => exact ih (closed _ _ _ _ first enters _ inner)

theorem Node.Enters.overruns_iff {length : Nat} {file : Option String} {node : Node} {path : String}
    {document : Document} (enters : node.Enters options Reference.Waits file path document) :
    node.Overruns options length file ↔
      Chain options Reference.Waits (some path) document.nodes length := by
  constructor
  · rintro ⟨other, otherDocument, entersOther, chain⟩
    obtain ⟨rfl, rfl⟩ := enters.unique entersOther
    exact chain
  · exact fun chain => ⟨path, document, enters, chain⟩

theorem Node.Enters.allLead {file : Option String} {node : Node} {path : String}
    {document : Document} (enters : node.Enters options Reference.Waits file path document)
    (leads : ∀ reached other, node.Reaches options Reference.Waits file reached other →
      other.Leads options Reference.Waits reached) :
    AllLead options Reference.Waits (some path) document.nodes :=
  fun _ inside reached other reaches => leads reached other (.next enters inside reaches)

theorem Node.exists_mem_cons {holds : Node → Prop} {node : Node} {rest : List Node} :
    (∃ found ∈ node :: rest, holds found) ↔ holds node ∨ ∃ found ∈ rest, holds found := by
  simp only [List.mem_cons, or_and_right, exists_or, exists_eq_left]

theorem Node.exists_mem_walkAll_cons {holds : Node → Prop} {node : Node} {rest : List Node} :
    (∃ found ∈ walkAll (node :: rest), holds found) ↔
      (∃ found ∈ node.walk, holds found) ∨ ∃ found ∈ walkAll rest, holds found := by
  simp only [walkAll, List.mem_append, or_and_right, exists_or]

/-- Loading fails if and only if there is a chain that is too long. -/
def Loading.Decides {α : Type} (options : LoadOptions) (action : Loading α) (tooLong : Prop) :
    Prop :=
  Satisfies action (fun _ => ¬tooLong) fun failure => tooLong ∧ failure.IsTooDeep options.maxDepth

/-- The levels that are left are exactly as many as there may be references in a chain. -/
def Loading.Deeper.Exact (options : LoadOptions) (deeper : Loading.Deeper) (remaining : Nat) :
    Prop :=
  match deeper with
  | none => remaining = 0
  | some loads => ∀ (origin : Origin) nodes,
      Node.AllLead options Reference.Waits origin.file nodes →
        Loading.Decides options (loads origin nodes)
          (Node.Chain options Reference.Waits origin.file nodes remaining)

namespace Loading.Decides

variable {α β : Type} {action : Loading α} {next : α → Loading β} {tooLong others : Prop}

theorem andThen (first : Decides options action tooLong)
    (second : ∀ value, Decides options (next value) others) :
    Decides options (action >>= next) (tooLong ∨ others) := by
  refine Satisfies.bind (first.mono (fun _ => id) fun _ failed => ⟨.inl failed.1, failed.2⟩) ?_
  intro value short
  refine (second value).mono (fun _ othersShort => ?_) fun _ failed => ⟨.inr failed.1, failed.2⟩
  exact not_or.mpr ⟨short, othersShort⟩

theorem pure {value : α} (short : ¬tooLong) : Decides options (pure value) tooLong :=
  Satisfies.pure short

/-- What comes after the last chance to fail. -/
theorem bind_pure (first : Decides options action tooLong) (rest : α → β) :
    Decides options (action >>= fun value => Pure.pure (rest value)) tooLong :=
  Satisfies.bind first fun _ short => Satisfies.pure short

end Loading.Decides

theorem decides_loadTemplate {deeper : Loading.Deeper} {remaining : Nat}
    (exact : deeper.Exact options remaining) (origin : Origin) (span : Span) {path : String}
    {bytes : List UInt8} {document : Document} (parses : options.Parses path bytes document)
    (leads : Node.AllLead options Reference.Waits (some path) document.nodes) :
    Loading.Decides options
      (loadTemplate options deeper origin span path (Text.decodeLossy bytes))
      (Node.Chain options Reference.Waits (some path) document.nodes remaining) := by
  cases deeper with
  | none =>
      have none : remaining = 0 := exact
      subst none
      exact .throw ⟨.stop, _, _, rfl⟩
  | some loads =>
      have read : Satisfies (Loading.noting (Document.ofSource options.extensions (some path)
          (Text.decodeLossy bytes))) (· = document) fun failure =>
            Node.Chain options Reference.Waits (some path) document.nodes remaining ∧
              failure.IsTooDeep options.maxDepth := by
        intro state
        have parsed := parses state.events
        dsimp only [Loading.noting]
        revert parsed
        cases Document.ofSource options.extensions (some path) (Text.decodeLossy bytes)
            state.events with
        | ok found events => exact Except.ok.inj
        | error failure events => exact nofun
      refine Satisfies.bind read ?_
      rintro _ rfl
      exact Satisfies.bind (exact ⟨some path, some (Text.decodeLossy bytes)⟩ _ leads) fun _ short =>
        .pure short

theorem decides_loadReference {deeper : Loading.Deeper} {remaining : Nat}
    (exact : deeper.Exact options remaining) (origin : Origin) (span : Span) (use : FileUse)
    (reference : Reference) (loaded children : List Node)
    (leads : ∀ reached other, (Node.file span use reference loaded children).Reaches options
      Reference.Waits origin.file reached other → other.Leads options Reference.Waits reached) :
    Loading.Decides options (loadReference options deeper origin span use reference loaded)
      ((Node.file span use reference loaded children).Overruns options remaining origin.file) := by
  unfold loadReference
  split
  · next contents known =>
      refine .pure ?_
      rintro ⟨path, document, ⟨-, waits, -, -⟩, -⟩
      rw [Reference.Waits, known] at waits
      cases waits
  · next unknown =>
      rcases leads _ _ .here span use reference loaded children rfl unknown with
        ⟨path, bytes, ⟨resolves, reads⟩, parses⟩
      have bytesOf : options.bytesOf path = .ok bytes := by
        unfold LoadOptions.bytesOf
        rw [reads]
      refine Satisfies.bind (Loading.satisfies_require (by simp [resolves])) ?_
      intro found isFound
      obtain rfl := Except.ok.inj (resolves.symm.trans isFound)
      refine Satisfies.bind (Loading.satisfies_require (by simp [bytesOf])) ?_
      intro found isFound
      obtain rfl := Except.ok.inj (bytesOf.symm.trans isFound)
      refine Satisfies.bind (.modify _) fun _ _ => ?_
      cases use with
      | raw filters =>
          refine .pure ?_
          rintro ⟨_, _, ⟨template, -, -, -⟩, -⟩
          exact template filters rfl
      | inclusion | inheritance =>
          rcases parses (by simp) with ⟨document, isDocument⟩
          have enters {use : FileUse} (template : ∀ filters, use ≠ .raw filters) :
              (Node.file span use reference loaded children).Enters options Reference.Waits
                origin.file path document :=
            .intro template unknown ⟨resolves, reads⟩ isDocument
          rw [(enters (by simp)).overruns_iff]
          exact (decides_loadTemplate exact origin span isDocument
            ((enters (by simp)).allLead leads)).bind_pure _

mutual

theorem decides_loadNode {deeper : Loading.Deeper} {remaining : Nat}
    (exact : deeper.Exact options remaining) (origin : Origin) : ∀ {node : Node},
    (∀ found ∈ node.walk, ∀ reached other, found.Reaches options Reference.Waits origin.file
      reached other → other.Leads options Reference.Waits reached) →
      Loading.Decides options (loadNode options deeper origin node)
        (∃ found ∈ node.walk, found.Overruns options remaining origin.file)
  | .leaf .., _ => by
      unfold loadNode
      refine .pure ?_
      rintro ⟨found, inside, _, _, enters, _⟩
      obtain rfl := List.mem_singleton.mp inside
      cases enters
  | .branch span label children, leads => by
      have here : ¬(Node.branch span label children).Overruns options remaining origin.file := by
        rintro ⟨_, _, enters, _⟩
        cases enters
      rw [Node.walk, Node.exists_mem_cons, or_iff_right here]
      unfold loadNode
      exact (decides_loadNodes exact origin (List.forall_mem_cons.mp leads).2).bind_pure _
  | .file span use reference loaded children, leads => by
      have head : ∀ reached other, (Node.file span use reference loaded children).Reaches options
          Reference.Waits origin.file reached other →
            other.Leads options Reference.Waits reached :=
        leads _ (by cases use <;> simp [Node.walk])
      have first := decides_loadReference exact origin span use reference loaded children head
      unfold loadNode
      cases use with
      | raw | inheritance =>
          simp only [Node.walk, List.mem_singleton, exists_eq_left]
          exact first.bind_pure _
      | inclusion body =>
          rw [Node.walk, Node.exists_mem_cons]
          exact first.andThen fun _ =>
            (decides_loadNodes exact origin (List.forall_mem_cons.mp leads).2).bind_pure _

theorem decides_loadNodes {deeper : Loading.Deeper} {remaining : Nat}
    (exact : deeper.Exact options remaining) (origin : Origin) : ∀ {nodes : List Node},
    Node.AllLead options Reference.Waits origin.file nodes →
      Loading.Decides options (loadNodes options deeper origin nodes)
        (∃ found ∈ Node.walkAll nodes, found.Overruns options remaining origin.file)
  | [], _ => by
      unfold loadNodes
      exact .pure (by simp [Node.walkAll])
  | node :: rest, leads => by
      rcases List.forall_mem_append.mp leads with ⟨first, others⟩
      unfold loadNodes
      rw [Node.exists_mem_walkAll_cons]
      exact (decides_loadNode exact origin first).andThen fun _ =>
        (decides_loadNodes exact origin others).bind_pure _

end

theorem exact_loadLevels (remaining : Nat) :
    (loadLevels options remaining).Exact options remaining := by
  induction remaining with
  | zero => exact rfl
  | succ remaining ih =>
      intro origin nodes leads
      rw [Node.chain_succ_iff]
      exact decides_loadNodes ih origin leads

theorem decides_load {document : Document} {origin : Origin}
    (leads : Node.AllLead options Reference.Waits origin.file document.nodes) :
    Satisfies (load document origin options)
      (fun _ => ¬Node.Chain options Reference.Waits origin.file document.nodes
        (options.maxDepth + 1))
      fun failure => Node.Chain options Reference.Waits origin.file document.nodes
        (options.maxDepth + 1) ∧ failure.IsTooDeep options.maxDepth := by
  intro events
  have decides := decides_loadNodes (exact_loadLevels options.maxDepth) origin leads
    { events := events }
  rw [← Node.chain_succ_iff] at decides
  unfold load
  dsimp only
  revert decides
  cases loadNodes options (loadLevels options options.maxDepth) origin document.nodes
      { events := events } <;> exact id

/-- A chain goes on from each of its references. -/
theorem Node.Chain.shorter {counts : Reference → Prop} {file : Option String} {nodes : List Node}
    {length less : Nat} (chain : Chain options counts file nodes length) (within : less ≤ length) :
    Chain options counts file nodes less := by
  induction chain generalizing less with
  | stop =>
      obtain rfl : less = 0 := Nat.le_zero.mp within
      exact .stop
  | next inside enters _ ih =>
      cases less with
      | zero => exact .stop
      | succ less => exact .next inside enters (ih (Nat.le_of_succ_le_succ within))

end

/-- Loading ends whatever the files are, those that include or extend themselves or each other among
them: at each depth there is exactly one result. And if all references that are reached lead to
files, then loading succeeds if and only if no chain of templates that are still to be loaded has
more references than levels are allowed; otherwise it fails because it is too deep. -/
theorem load_ends_at_limit (options : LoadOptions) (document : Document) (origin : Origin)
    (events : Array Event) :
    (∃ result, Loads options 0 origin document.nodes { events := events } result ∧
      (∀ other, Loads options 0 origin document.nodes { events := events } other →
        other = result) ∧
      outcome (load document origin options events) =
        (outcome result).map fun nodes => { document with nodes := nodes }) ∧
    (Node.AllLead options Reference.Waits origin.file document.nodes →
      ((∃ loaded after, load document origin options events = .ok loaded after) ↔
        ∀ length, Node.Chain options Reference.Waits origin.file document.nodes length →
          length ≤ options.maxDepth) ∧
      ((∃ length, Node.Chain options Reference.Waits origin.file document.nodes length ∧
          options.maxDepth < length) →
        ∃ failure after, load document origin options events = .error failure after ∧
          failure.IsTooDeep options.maxDepth)) := by
  have all : 0 + options.maxDepth = options.maxDepth := Nat.zero_add _
  refine ⟨⟨_, loads_loadNodes all origin document.nodes _, fun other loads => loads.eq all, ?_⟩,
    fun leads => ?_⟩
  · unfold load
    dsimp only
    cases loadNodes options (loadLevels options options.maxDepth) origin document.nodes
      { events := events } <;> rfl
  · have decides := decides_load leads events
    have exact : Node.Chain options Reference.Waits origin.file document.nodes
        (options.maxDepth + 1) ↔ ∃ length,
          Node.Chain options Reference.Waits origin.file document.nodes length ∧
            options.maxDepth < length :=
      ⟨fun chain => ⟨_, chain, Nat.lt_succ_self _⟩, fun ⟨_, chain, longer⟩ => chain.shorter longer⟩
    have within : (∀ length, Node.Chain options Reference.Waits origin.file document.nodes length →
        length ≤ options.maxDepth) ↔ ¬∃ length,
          Node.Chain options Reference.Waits origin.file document.nodes length ∧
            options.maxDepth < length := by
      simp only [not_exists, not_and, Nat.not_lt]
    rw [exact] at decides
    rw [within]
    cases done : load document origin options events with
    | ok loaded after =>
        rw [done] at decides
        exact ⟨⟨fun _ => decides, fun _ => ⟨loaded, after, rfl⟩⟩,
          fun tooLong => absurd tooLong decides⟩
    | error failure after =>
        rw [done] at decides
        exact ⟨⟨nofun, fun short => absurd decides.1 short⟩,
          fun _ => ⟨failure, after, rfl, decides.2⟩⟩

/-! ### A template that includes itself -/

/-- A file with one template, which includes itself. -/
def ownFile : Reader
  | "own.pg" => .ok (Text.encode "include own.pg")
  | _ => .error "no such file"

/-- The document of that template. -/
def ownDocument : Document where
  span := ⟨some "own.pg", 0, 0⟩
  nodes := [.file ⟨some "own.pg", 1, 1⟩ (.inclusion ⟨some "own.pg", 1, 1⟩)
    { span := ⟨some "own.pg", 1, 9⟩, path := "own.pg" } [] []]

theorem enters_ownDocument (maxDepth : Nat) :
    ∀ node ∈ Node.walkAll ownDocument.nodes,
      node.Enters (.plain none ownFile maxDepth) Reference.Waits (some "own.pg") "own.pg"
        ownDocument := by
  have cut : (outcome (tokenize (Text.decodeLossy (Text.encode "include own.pg"))
      { file := some "own.pg" } #[])).toOption.map Array.toList =
      some [⟨.inclusion, ⟨some "own.pg", 1, 1⟩, ⟨1, 8⟩⟩,
        ⟨.path "own.pg", ⟨some "own.pg", 1, 9⟩, ⟨1, 15⟩⟩,
        ⟨.eos, ⟨some "own.pg", 1, 15⟩, ⟨1, 15⟩⟩] := by
    decide +kernel
  have resolves : resolvePath none "own.pg" (some "own.pg") = .ok "own.pg" :=
    congrArg Except.ok (String.toList_inj.mp (by decide))
  intro node inside
  obtain rfl := List.mem_singleton.mp inside
  exact .intro (by simp) rfl ⟨resolves, rfl⟩ fun events =>
    outcome_ofSource_of_tokens events cut fun _ => rfl

theorem load_ownDocument :
    ∃ failure after,
      load ownDocument ⟨some "own.pg", none⟩ (.plain none ownFile 3) #[] = .error failure after ∧
        failure.IsTooDeep 3 := by
  have enters := enters_ownDocument 3
  have chain (length : Nat) : Node.Chain (.plain none ownFile 3) Reference.Waits (some "own.pg")
      ownDocument.nodes length := by
    induction length with
    | zero => exact .stop
    | succ length ih => exact .next List.mem_cons_self (enters _ List.mem_cons_self) ih
  have leads : Node.AllLead (.plain none ownFile 3) Reference.Waits (some "own.pg")
      ownDocument.nodes := by
    refine Node.allLead_of_invariant
      (fun file node => file = some "own.pg" ∧ node ∈ Node.walkAll ownDocument.nodes) ?_ ?_ ?_
    · rintro _ node path document ⟨rfl, inside⟩ entered inner inDocument
      obtain ⟨rfl, rfl⟩ := (enters node inside).unique entered
      exact ⟨rfl, inDocument⟩
    · rintro _ node ⟨rfl, inside⟩
      exact (enters node inside).leads
    · exact fun node inside => ⟨rfl, inside⟩
  exact ((load_ends_at_limit _ ownDocument ⟨some "own.pg", none⟩ #[]).2 leads).2
    ⟨4, chain 4, Nat.lt_succ_self 3⟩

/-! ### References that do not wait -/

/-- A page with an include of which the file is known. -/
def knownDocument : Document where
  nodes := [.file ⟨none, 1, 1⟩ (.inclusion ⟨none, 1, 1⟩)
    { span := ⟨none, 1, 9⟩, path := "a.pg", contents := some "", root := some {} } [] []]

/-- The file of that include. -/
def emptyFile : Reader
  | "a.pg" => .ok []
  | _ => .error "no such file"

/-- A reference to a known file is passed over, however few levels are allowed. -/
theorem known_reference_passed :
    Node.AllLead (.plain none emptyFile 0) (fun _ => True) (some "page.pg")
        knownDocument.nodes ∧
      ¬((∃ loaded after,
          load knownDocument ⟨some "page.pg", none⟩ (.plain none emptyFile 0) #[] =
            .ok loaded after) ↔
        ∀ length, Node.Chain (.plain none emptyFile 0) (fun _ => True) (some "page.pg")
          knownDocument.nodes length → length ≤ 0) := by
  have cut : (outcome (tokenize (Text.decodeLossy []) { file := some "a.pg" } #[])).toOption.map
      Array.toList = some [⟨.eos, ⟨some "a.pg", 1, 1⟩, ⟨1, 1⟩⟩] := by
    decide +kernel
  have resolves : resolvePath none "a.pg" (some "page.pg") = .ok "a.pg" :=
    congrArg Except.ok (String.toList_inj.mp (by decide))
  have enters : ∀ node ∈ Node.walkAll knownDocument.nodes,
      node.Enters (.plain none emptyFile 0) (fun _ => True) (some "page.pg") "a.pg"
        ⟨⟨some "a.pg", 0, 0⟩, []⟩ := by
    intro node inside
    obtain rfl := List.mem_singleton.mp inside
    exact .intro (by simp) trivial ⟨resolves, rfl⟩ fun events =>
      outcome_ofSource_of_tokens events cut fun _ => rfl
  constructor
  · refine Node.allLead_of_invariant
      (fun file node => file = some "page.pg" ∧ node ∈ Node.walkAll knownDocument.nodes) ?_ ?_ ?_
    · rintro _ node path document ⟨rfl, inside⟩ entered inner inDocument
      obtain ⟨rfl, rfl⟩ := (enters node inside).unique entered
      cases inDocument
    · rintro _ node ⟨rfl, inside⟩
      exact (enters node inside).leads
    · exact fun node inside => ⟨rfl, inside⟩
  · intro exact
    have one : Node.Chain (.plain none emptyFile 0) (fun _ => True) (some "page.pg")
        knownDocument.nodes 1 :=
      .next List.mem_cons_self (enters _ List.mem_cons_self) .stop
    exact absurd (exact.mp ⟨_, _, rfl⟩ 1 one) (Nat.not_succ_le_zero 0)

end Offside
