import Mathlib.Data.List.Infix
import Offside.Proofs.Inclusion.Depth

/-!
# Where absolute paths lead

An absolute path of an include leads from the base directory, in whatever template it is written.
What is left of it behind its slash is put after the base directory, whose components are then the
first ones of the path at which the file is read. A path that goes on with another slash is the
exception: what is left of it is absolute again, so that nothing remains of the base directory.

Loading reads files at the paths to which references lead, and no others: what is anywhere else
makes no difference to it.
-/

namespace Offside

open Computing

/-! ### Components -/

namespace Path

/-- The names of a path that stand for something. -/
def significantNames (path : List Char) : List (List Char) :=
  (names path).filter fun name => name ≠ [] ∧ name ≠ ['.']

/-- The components of a path: the root or the dot with which it starts, and its significant
names. -/
def components (path : List Char) : List (List Char) :=
  if head path = [] then significantNames path else head path :: significantNames path

/-- A character other than a slash belongs to the first name. -/
theorem names_cons_of_ne {character : Char} (noSlash : character ≠ '/') (rest : List Char) :
    ∃ name others, names rest = name :: others ∧
      names (character :: rest) = (character :: name) :: others := by
  induction rest generalizing character with
  | nil => exact ⟨[], [], rfl, by simp [names]⟩
  | cons next rest ih =>
      by_cases slash : next = '/'
      · subst slash
        exact ⟨[], names rest, rfl, by simp [names]⟩
      · rcases ih slash with ⟨name, others, -, split⟩
        exact ⟨next :: name, others, split, by rw [names, split]; simpa using noSlash⟩

/-- A slash ends a name. -/
theorem names_append_slash (front rest : List Char) :
    names (front ++ '/' :: rest) = names front ++ names rest := by
  induction front with
  | nil => rfl
  | cons character front ih =>
      by_cases slash : character = '/'
      · subst slash
        exact congrArg ([] :: ·) ih
      · rcases names_cons_of_ne slash front with ⟨name, others, first, whole⟩
        rcases names_cons_of_ne slash (front ++ '/' :: rest) with ⟨longer, more, split, longerWhole⟩
        rw [ih, first, List.cons_append, List.cons.injEq] at split
        rcases split with ⟨rfl, rfl⟩
        rw [List.cons_append, longerWhole, whole, List.cons_append]

/-- Two characters decide what a path starts with. -/
theorem head_cons_cons (first second : Char) (rest : List Char) :
    head (first :: second :: rest) =
      if first = '/' then ['/'] else if first = '.' ∧ second = '/' then ['.'] else [] := by
  unfold head
  split <;> simp_all

/-- What a path starts with does not depend on what is behind a slash. -/
theorem head_append_slash (front rest : List Char) :
    head (front ++ '/' :: rest) = head (front ++ ['/']) := by
  match front with
  | [] => rfl
  | [first] => exact (head_cons_cons first '/' rest).trans (head_cons_cons first '/' []).symm
  | first :: second :: front => simp only [List.cons_append, head_cons_cons]

theorem head_append_slash_of_ne_nil {front : List Char} (some : front ≠ []) (rest : List Char) :
    head (front ++ '/' :: rest) = head front := by
  match front with
  | [first] =>
      refine (head_cons_cons first '/' rest).trans ?_
      by_cases slash : first = '/'
      · simp [head, slash]
      · by_cases dot : first = '.' <;> simp [head, slash, dot]
  | first :: second :: front => simp only [List.cons_append, head_cons_cons]

theorem significantNames_append_slash (front rest : List Char) :
    significantNames (front ++ '/' :: rest) = significantNames front ++ significantNames rest := by
  simp only [significantNames, names_append_slash, List.filter_append]

theorem components_prefix {path longer : List Char} (starts : head longer = head path)
    (goesOn : significantNames path <+: significantNames longer) :
    components path <+: components longer := by
  unfold components
  rw [starts]
  split
  · exact goesOn
  · exact List.prefix_cons_inj _ |>.mpr goesOn

/-- The components of a base come first in a path that is put after it. -/
theorem components_prefix_join (base : List Char) {path : List Char}
    (relative : path.head? ≠ some '/') : components base <+: components (join base path) := by
  unfold join
  split
  · exact absurd rfl relative
  · split
    · next empty =>
        obtain rfl := List.getLast?_eq_none_iff.mp empty
        exact List.nil_prefix
    · next slash =>
        rcases List.getLast?_eq_some_iff.mp slash with ⟨front, rfl⟩
        rw [List.append_assoc, List.singleton_append]
        refine components_prefix (head_append_slash front path) ?_
        rw [significantNames_append_slash, significantNames_append_slash]
        exact (List.prefix_append_right_inj _).mpr List.nil_prefix
    · next last =>
        have some : base ≠ [] := by
          rintro rfl
          cases last
        refine components_prefix (head_append_slash_of_ne_nil some path) ?_
        rw [significantNames_append_slash]
        exact List.prefix_append _ _

end Path

/-! ### The paths at which files are read -/

/-- When a node of a file is loaded, a reference that is still to be loaded leads to a path: one of
the node itself, or one of a template to which the node leads. -/
inductive Node.Asks (options : LoadOptions) : Option String → Node → Reference → String → Prop
  | here {file : Option String} {span : Span} {use : FileUse} {reference : Reference}
      {loaded children : List Node} {path : String} (waits : reference.Waits)
      (resolves : options.resolve reference.path file = .ok path) :
      Asks options file (.file span use reference loaded children) reference path
  | next {file : Option String} {span : Span} {use : FileUse} {reference asking : Reference}
      {loaded children : List Node} {path asked : String} {bytes : List UInt8}
      {document : Document} {inner : Node} {events : Array Event}
      (template : ∀ filters, use ≠ .raw filters) (waits : reference.Waits)
      (leads : reference.LeadsTo options.resolve options.read file path bytes)
      (parses : outcome (Document.ofSource options.extensions (some path)
        (Text.decodeLossy bytes) events) = .ok document)
      (inside : inner ∈ walkAll document.nodes)
      (asks : Asks options (some path) inner asking asked) :
      Asks options file (.file span use reference loaded children) asking asked

/-- The options with another way to read. -/
def LoadOptions.reading (options : LoadOptions) (other : Reader) : LoadOptions :=
  { options with read := other }

/-- A file that is not read as a template leads no further. -/
theorem Node.asks_raw_iff {options : LoadOptions} {file : Option String} {span : Span}
    {filters : List IncludeFilter} {reference asking : Reference} {loaded children : List Node}
    {path : String} :
    (Node.file span (.raw filters) reference loaded children).Asks options file asking path ↔
      asking = reference ∧ reference.Waits ∧ options.resolve reference.path file = .ok path := by
  constructor
  · intro asks
    cases asks with
    | here waits resolves => exact ⟨rfl, waits, resolves⟩
    | next template => exact absurd rfl (template filters)
  · rintro ⟨rfl, waits, resolves⟩
    exact .here waits resolves

/-- Another way to read agrees on all paths to which references lead when a node of a file is
loaded. -/
def Node.Agrees (options : LoadOptions) (other : Reader) (file : Option String) (node : Node) :
    Prop :=
  ∀ reference path, node.Asks options file reference path → other path = options.read path

section

variable {options : LoadOptions} {other : Reader} {deeper deeperOther : Loading.Deeper}

theorem Loading.require_bind_congr {α β : Type} {origin : Origin} {span : Span}
    {found : Except LoadFault α} {next nextOther : α → Loading β}
    (each : ∀ value, found = .ok value → nextOther value = next value) :
    Loading.require origin span found >>= nextOther =
      Loading.require origin span found >>= next := by
  cases found with
  | error cause => rfl
  | ok value => exact each value rfl

theorem Loading.noting_bind_congr {α β : Type} {action : EStateM Failure (Array Event) α}
    {next nextOther : α → Loading β}
    (each : ∀ value events, outcome (action events) = .ok value → nextOther value = next value) :
    Loading.noting action >>= nextOther = Loading.noting action >>= next := by
  funext state
  cases acted : action state.events with
  | error failure events =>
      have failed :
          Loading.noting action state = .error failure { state with events := events } := by
        simp only [Loading.noting, acted]
      rw [bind_of_error failed, bind_of_error failed]
  | ok value events =>
      have done : Loading.noting action state = .ok value { state with events := events } := by
        simp only [Loading.noting, acted]
      rw [bind_of_ok done, bind_of_ok done, each value _ (congrArg outcome acted)]

/-- Deeper levels read what they are asked for. -/
def Loading.Deeper.ReadsAsked (options : LoadOptions) (other : Reader) :
    Loading.Deeper → Loading.Deeper → Prop
  | none, none => True
  | some loads, some loadsOther => ∀ (origin : Origin) nodes,
      (∀ node ∈ Node.walkAll nodes, node.Agrees options other origin.file) →
        loadsOther origin nodes = loads origin nodes
  | _, _ => False

theorem loadTemplate_congr (below : Loading.Deeper.ReadsAsked options other deeper deeperOther)
    (origin : Origin) (span : Span) {path contents : String}
    (agrees : ∀ document events,
      outcome (Document.ofSource options.extensions (some path) contents events) = .ok document →
        ∀ node ∈ Node.walkAll document.nodes, node.Agrees options other (some path)) :
    loadTemplate (options.reading other) deeperOther origin span path contents =
      loadTemplate options deeper origin span path contents := by
  cases deeper with
  | none =>
      cases deeperOther with
      | none => rfl
      | some loadsOther => exact below.elim
  | some loads =>
      cases deeperOther with
      | none => exact below.elim
      | some loadsOther =>
          refine Loading.noting_bind_congr fun document events parses => ?_
          rw [below _ document.nodes (agrees document events parses)]

theorem bytesOf_reading {path : String} (same : other path = options.read path) :
    (options.reading other).bytesOf path = options.bytesOf path := by
  unfold LoadOptions.bytesOf LoadOptions.reading
  dsimp only
  rw [same]

theorem loadReference_congr (below : Loading.Deeper.ReadsAsked options other deeper deeperOther)
    (origin : Origin) {span : Span} {use : FileUse} {reference : Reference}
    {loaded children : List Node}
    (agrees : (Node.file span use reference loaded children).Agrees options other origin.file) :
    loadReference (options.reading other) deeperOther origin span use reference loaded =
      loadReference options deeper origin span use reference loaded := by
  unfold loadReference
  split
  · rfl
  · next waits =>
      refine Loading.require_bind_congr fun path resolves => ?_
      rw [bytesOf_reading (agrees _ _ (.here waits resolves))]
      refine Loading.require_bind_congr fun bytes found => bind_congr fun _ => ?_
      have leads : reference.LeadsTo options.resolve options.read origin.file path bytes := by
        refine ⟨resolves, ?_⟩
        unfold LoadOptions.bytesOf at found
        split at found
        · next reads =>
            cases found
            exact reads
        · cases found
      have agreesInside (template : ∀ filters, use ≠ .raw filters) (document : Document)
          (events : Array Event) (parses : outcome (Document.ofSource options.extensions (some path)
            (Text.decodeLossy bytes) events) = .ok document) :
          ∀ node ∈ Node.walkAll document.nodes, node.Agrees options other (some path) :=
        fun node inside asking asked asks =>
          agrees _ _ (.next template waits leads parses inside asks)
      cases use with
      | raw filters => rfl
      | inclusion | inheritance =>
          dsimp only
          rw [loadTemplate_congr below origin span (agreesInside (by simp))]

mutual

theorem loadNode_congr (below : Loading.Deeper.ReadsAsked options other deeper deeperOther)
    (origin : Origin) : ∀ {node : Node},
      (∀ inner ∈ node.walk, inner.Agrees options other origin.file) →
        loadNode (options.reading other) deeperOther origin node =
          loadNode options deeper origin node
  | .leaf .., _ => rfl
  | .branch _ _ children, agrees => by
      unfold Node.walk at agrees
      rw [List.forall_mem_cons] at agrees
      unfold loadNode
      rw [loadNodes_congr below origin agrees.2]
  | .file span use reference loaded children, agrees => by
      have here : (Node.file span use reference loaded children).Agrees options other
          origin.file := by
        refine agrees _ ?_
        cases use <;> simp [Node.walk]
      unfold loadNode
      rw [loadReference_congr below origin here]
      refine bind_congr fun found => ?_
      cases use with
      | raw | inheritance => rfl
      | inclusion body =>
          unfold Node.walk at agrees
          rw [List.forall_mem_cons] at agrees
          dsimp only
          rw [loadNodes_congr below origin agrees.2]

theorem loadNodes_congr (below : Loading.Deeper.ReadsAsked options other deeper deeperOther)
    (origin : Origin) : ∀ {nodes : List Node},
      (∀ node ∈ Node.walkAll nodes, node.Agrees options other origin.file) →
        loadNodes (options.reading other) deeperOther origin nodes =
          loadNodes options deeper origin nodes
  | [], _ => rfl
  | _ :: _, agrees => by
      unfold Node.walkAll at agrees
      rw [List.forall_mem_append] at agrees
      unfold loadNodes
      rw [loadNode_congr below origin agrees.1, loadNodes_congr below origin agrees.2]

end

theorem readsAsked_loadLevels (remaining : Nat) :
    Loading.Deeper.ReadsAsked options other (loadLevels options remaining)
      (loadLevels (options.reading other) remaining) := by
  induction remaining with
  | zero => trivial
  | succ remaining ih => exact fun origin nodes agrees => loadNodes_congr ih origin agrees

/-- Only the files at the paths to which references lead matter to loading. -/
theorem load_reading {document : Document} {origin : Origin}
    (agrees : ∀ node ∈ document.walk, node.Agrees options other origin.file) :
    load document origin (options.reading other) = load document origin options := by
  funext events
  unfold load
  dsimp only
  rw [loadNodes_congr (readsAsked_loadLevels _) origin agrees]
  rfl

end

/-! ### Absolute paths -/

/-- An absolute path leads somewhere, from whatever file. -/
theorem resolvePath_absolute (base : String) {path : String} {rest : List Char}
    (absolute : Text.trim path.toList = '/' :: rest) (source : Option String) :
    resolvePath (some base) path source = .ok (String.ofList (Path.join base.toList rest)) := by
  simp only [resolvePath, absolute]

/-- The options of which the paths lead from a base directory. -/
def LoadOptions.anchored (options : LoadOptions) (base : String) : LoadOptions :=
  { options with resolve := resolvePath (some base) }

theorem Node.Asks.toList_eq {options : LoadOptions} {base path : String} {file : Option String}
    {node : Node} {reference : Reference} {rest : List Char}
    (asks : node.Asks (options.anchored base) file reference path)
    (absolute : Text.trim reference.path.toList = '/' :: rest) :
    path.toList = Path.join base.toList rest := by
  induction asks with
  | here waits resolves =>
      obtain rfl := Except.ok.inj ((resolvePath_absolute base absolute _).symm.trans resolves)
      exact String.toList_ofList
  | next template waits leads parses inside asks ih => exact ih absolute

/-- An absolute path in a template at any depth leads to what is left of it, put after the base
directory: the file is read at a path that begins with the components of the base, unless what is
left begins with a slash, which leaves nothing of the base. And loading reads files at the paths to
which references lead only: with another reader that agrees on these, all is the same. -/
theorem absolute_stays_below_base (options : LoadOptions) (base : String) (document : Document)
    (origin : Origin) :
    (∀ written rest, Text.trim written.toList = '/' :: rest → ∀ source, ∃ path,
      (options.anchored base).resolve written source = .ok path) ∧
    (∀ node ∈ document.walk, ∀ reference path,
      node.Asks (options.anchored base) origin.file reference path →
        ∀ rest, Text.trim reference.path.toList = '/' :: rest →
          path.toList = Path.join base.toList rest ∧
          (rest.head? ≠ some '/' → Path.components base.toList <+: Path.components path.toList) ∧
          (rest.head? = some '/' → path.toList = rest)) ∧
    ∀ other : Reader,
      (∀ node ∈ document.walk, node.Agrees (options.anchored base) other origin.file) →
        load document origin ((options.anchored base).reading other) =
          load document origin (options.anchored base) := by
  refine ⟨fun written rest absolute source => ⟨_, resolvePath_absolute base absolute source⟩, ?_,
    fun other agrees => load_reading agrees⟩
  intro node _ reference path asks rest absolute
  have joined := asks.toList_eq absolute
  refine ⟨joined, fun relative => ?_, fun again => ?_⟩
  · rw [joined]
    exact Path.components_prefix_join base.toList relative
  · rw [joined]
    cases rest with
    | nil => cases again
    | cons first rest =>
        obtain rfl := Option.some.inj again
        rfl

/-- A page that includes a file by an absolute path. -/
theorem absolute_stays_below_base_note :
    let files : Reader := fun path => if path = "site/note.txt" then .ok [0x61] else .error "closed"
    let others : Reader := fun path =>
      if path = "site/note.txt" then .ok [0x61] else .ok [0x62]
    let options : LoadOptions := { read := files }
    let reference : Reference := { span := {}, path := "/note.txt" }
    let node : Node := .file {} (.raw []) reference [] []
    let origin : Origin := ⟨some "site/page.pg", none⟩
    node.Asks (options.anchored "site") origin.file reference "site/note.txt" ∧
      Path.components "site".toList <+: Path.components "site/note.txt".toList ∧
      node.Agrees (options.anchored "site") others origin.file ∧
      load { nodes := [node] } origin ((options.anchored "site").reading others) =
        load { nodes := [node] } origin (options.anchored "site") := by
  intro files others options reference node origin
  have absolute : Text.trim reference.path.toList = '/' :: "note.txt".toList := by decide
  have resolves : (options.anchored "site").resolve reference.path origin.file =
      .ok "site/note.txt" := by
    have joined : String.ofList (Path.join "site".toList "note.txt".toList) = "site/note.txt" :=
      String.toList_inj.mp (by decide)
    rw [← joined]
    exact resolvePath_absolute "site" absolute origin.file
  have asks : node.Asks (options.anchored "site") origin.file reference "site/note.txt" :=
    .here rfl resolves
  have agrees : node.Agrees (options.anchored "site") others origin.file := by
    intro asking path asked
    rcases Node.asks_raw_iff.mp asked with ⟨rfl, -, leads⟩
    obtain rfl := Except.ok.inj (resolves.symm.trans leads)
    rfl
  have inside : ∀ found ∈ Document.walk { nodes := [node] }, found = node :=
    fun found => List.mem_singleton.mp
  rcases absolute_stays_below_base options "site" { nodes := [node] } origin with ⟨-, below, reads⟩
  refine ⟨asks, ?_, agrees, reads others fun found isInside => inside found isInside ▸ agrees⟩
  exact (below node List.mem_cons_self reference _ asks _ absolute).2.1 (by decide)

end Offside
