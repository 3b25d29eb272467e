import Offside.Page
import Offside.Proofs.Contract.Loading
import Offside.Proofs.Provenance.Document

/-!
# What loading delivers

A template names files by paths. Loading puts the file at each path there, and the nodes of those
files that are templates, with their files in turn; it changes nothing else. A path leads from the
file in which it is written, however deep that one is nested.
-/

namespace Offside

open Computing

/-! ### References that are not loaded yet -/

namespace Node

mutual

/-- Nothing is known of the files to which the node and the nodes in it refer, but their paths. -/
def Fresh : Node → Prop
  | .leaf .. => True
  | .branch _ _ children => FreshAll children
  | .file _ _ reference loaded children => reference.Open ∧ loaded = [] ∧ FreshAll children

/-- Nothing is known of the files to which some nodes refer, but their paths. -/
def FreshAll : List Node → Prop
  | [] => True
  | node :: rest => node.Fresh ∧ FreshAll rest

end

theorem freshAll_iff_every {nodes : List Node} : FreshAll nodes ↔ Every Fresh nodes := by
  induction nodes with
  | nil => simp [FreshAll]
  | cons node rest ih => simp [FreshAll, ih]

instance : ComposedIn fun _ => Fresh where
  composed _ := {
    leaf := fun _ _ => trivial
    branch := fun _ => freshAll_iff_every.mpr
    file := fun unknown fresh => ⟨unknown, rfl, freshAll_iff_every.mpr fresh⟩
    dissolve := freshAll_iff_every.mp }
  mixinBlock := trivial
  declaration := freshAll_iff_every.mpr

end Node

/-! ### References that are loaded -/

/-- The reference with the file at a path. -/
def Reference.fetched (reference : Reference) (path : String) (bytes : List UInt8) : Reference :=
  { reference with
    fullPath := some path
    contents := some (Text.decodeLossy bytes)
    bytes := some bytes }

/-- The document of the template at a path. -/
def Document.IsOf (document : Document) (path : String) (bytes : List UInt8) : Prop :=
  outcome (Document.ofSource {} (some path) (Text.decodeLossy bytes) #[]) = .ok document

/-- The path of a reference, written in a file, leads to a file that can be read. -/
structure Reference.LeadsTo
    (resolve : (path : String) → (source : Option String) → Except LoadFault String)
    (read : Reader) (file : Option String) (reference : Reference) (path : String)
    (bytes : List UInt8) : Prop where
  resolves : resolve reference.path file = .ok path
  reads : read path = .ok bytes

section

variable (base : Option String) (read : Reader)

namespace Node

mutual

/-- The second node is the first one with all its files. -/
inductive Delivered : Node → Node → Prop
  | leaf (span : Span) (content : Leaf) : Delivered (.leaf span content) (.leaf span content)
  | branch (span : Span) (label : Label) {children filled : List Node} :
      DeliveredAll children filled →
        Delivered (.branch span label children) (.branch span label filled)
  | raw {span : Span} (filters : List IncludeFilter) {reference : Reference} {path : String}
      {bytes : List UInt8} (children : List Node) :
      reference.Open → reference.LeadsTo (resolvePath base) read span.file path bytes →
        Delivered (.file span (.raw filters) reference [] children)
          (.file span (.raw filters) (reference.fetched path bytes) [] children)
  | inheritance {span : Span} {reference : Reference} {path : String} {bytes : List UInt8}
      {document : Document} {loaded : List Node} (children : List Node) :
      reference.Open → reference.LeadsTo (resolvePath base) read span.file path bytes →
        document.IsOf path bytes → DeliveredAll document.nodes loaded →
          Delivered (.file span .inheritance reference [] children)
            (.file span .inheritance
              { reference.fetched path bytes with root := some document.span } loaded children)
  | inclusion {span : Span} (body : Span) {reference : Reference} {path : String}
      {bytes : List UInt8} {document : Document} {loaded children filled : List Node} :
      reference.Open → reference.LeadsTo (resolvePath base) read span.file path bytes →
        document.IsOf path bytes → DeliveredAll document.nodes loaded →
          DeliveredAll children filled →
            Delivered (.file span (.inclusion body) reference [] children)
              (.file span (.inclusion body)
                { reference.fetched path bytes with root := some document.span } loaded filled)

/-- The nodes of the second list are those of the first one with all their files. -/
inductive DeliveredAll : List Node → List Node → Prop
  | nil : DeliveredAll [] []
  | cons {node filled : Node} {rest others : List Node} :
      Delivered node filled → DeliveredAll rest others →
        DeliveredAll (node :: rest) (filled :: others)

end

end Node

end

namespace Document.IsOf

variable {document other : Document} {path : String} {bytes : List UInt8}
  (isOf : document.IsOf path bytes)

include isOf

theorem freshAll : Node.FreshAll document.nodes :=
  Node.freshAll_iff_every.mpr
    ((satisfies_ofSource (fun _ => Node.Fresh) (some path) (Text.decodeLossy bytes)).value isOf)

theorem within :
    Node.Every (Node.Placed (Span.Within (some path) (Text.decodeLossy bytes))) document.nodes :=
  ((within_ofSource (some path) (Text.decodeLossy bytes)).value isOf).2

theorem unique (otherIsOf : other.IsOf path bytes) : document = other :=
  Except.ok.inj (isOf.symm.trans otherIsOf)

end Document.IsOf

/-- The text of a file is read as its document, whatever was noted before, or a failure points into
it. -/
theorem satisfies_ofSource_isOf (path : String) (bytes : List UInt8) :
    Satisfies (Document.ofSource {} (some path) (Text.decodeLossy bytes))
      (fun document => document.IsOf path bytes)
      (Failure.PointsInto (some path) (Text.decodeLossy bytes)) := by
  intro events
  have same := outcome_ofSource (some path) (Text.decodeLossy bytes) events
  have points := within_ofSource (some path) (Text.decodeLossy bytes) events
  cases acted : Document.ofSource {} (some path) (Text.decodeLossy bytes) events with
  | error failure after =>
      rw [acted] at points
      exact points
  | ok document after =>
      rw [acted] at same
      exact same.symm

/-! ### What is delivered is unique -/

theorem Reference.LeadsTo.unique
    {resolve : (path : String) → (source : Option String) → Except LoadFault String}
    {read : Reader} {file : Option String} {reference : Reference} {path other : String}
    {bytes otherBytes : List UInt8} (leads : reference.LeadsTo resolve read file path bytes)
    (otherLeads : reference.LeadsTo resolve read file other otherBytes) :
    path = other ∧ bytes = otherBytes := by
  obtain rfl := Except.ok.inj (leads.resolves.symm.trans otherLeads.resolves)
  exact ⟨rfl, Except.ok.inj (leads.reads.symm.trans otherLeads.reads)⟩

namespace Node

variable {base : Option String} {read : Reader}

mutual

theorem Delivered.unique : ∀ {node filled other : Node},
    Delivered base read node filled → Delivered base read node other → filled = other
  | _, _, _, .leaf .., .leaf .. => rfl
  | _, _, _, .branch _ _ delivered, .branch _ _ again => by
      rw [delivered.unique again]
  | _, _, _, .raw _ _ _ leads, .raw _ _ _ otherLeads => by
      obtain ⟨rfl, rfl⟩ := leads.unique otherLeads
      rfl
  | _, _, _, .inheritance _ _ leads isOf delivered,
    .inheritance _ _ otherLeads otherIsOf again => by
      obtain ⟨rfl, rfl⟩ := leads.unique otherLeads
      obtain rfl := isOf.unique otherIsOf
      rw [delivered.unique again]
  | _, _, _, .inclusion _ _ leads isOf delivered given,
    .inclusion _ _ otherLeads otherIsOf again givenAgain => by
      obtain ⟨rfl, rfl⟩ := leads.unique otherLeads
      obtain rfl := isOf.unique otherIsOf
      rw [delivered.unique again, given.unique givenAgain]

theorem DeliveredAll.unique : ∀ {nodes filled others : List Node},
    DeliveredAll base read nodes filled → DeliveredAll base read nodes others → filled = others
  | _, _, _, .nil, .nil => rfl
  | _, _, _, .cons delivered rest, .cons again restAgain => by
      rw [delivered.unique again, rest.unique restAgain]

end

end Node

/-- Where a path leads does not depend on a file that is not known. -/
theorem resolvePath_eq_ok_of_file {base source file : Option String} {path found : String}
    (resolves : resolvePath base path source = .ok found)
    (known : ∀ name, source = some name → file = some name) :
    resolvePath base path file = .ok found := by
  cases source with
  | some name => rwa [known name rfl]
  | none =>
      unfold resolvePath at resolves ⊢
      split at resolves
      · exact resolves
      · cases resolves

/-! ### Loading -/

section

variable (allowed : Failure → Prop)

/-- A span names the file of an origin, if that is known, and loading may fail there. -/
structure Origin.Owns (origin : Origin) (span : Span) : Prop where
  writes : ∀ name, origin.file = some name → span.file = some name
  blames : ∀ cause, allowed (.load ⟨cause, span, origin.source⟩)

/-- All failures are allowed that point into a file that can be read. -/
def Reader.Admits (read : Reader) : Prop :=
  ∀ path bytes failure, read path = .ok bytes →
    failure.PointsInto (some path) (Text.decodeLossy bytes) → allowed failure

end

section

variable {base : Option String} {read : Reader} {maxDepth : Nat} {deeper : Loading.Deeper}
  {allowed : Failure → Prop}

/-- The options for finding and reading files, with no extension. -/
def LoadOptions.plain (base : Option String) (read : Reader) (maxDepth : Nat) : LoadOptions :=
  { resolve := resolvePath base, read, maxDepth }

/-- The spans of a file that can be read are owned where its text is known. -/
theorem Reader.Admits.owns (admits : read.Admits allowed) {path : String} {bytes : List UInt8}
    (found : read path = .ok bytes) {span : Span}
    (within : span.Within (some path) (Text.decodeLossy bytes)) :
    Origin.Owns allowed ⟨some path, some (Text.decodeLossy bytes)⟩ span where
  writes _ known := within.file.trans known
  blames _ := admits path bytes _ found ⟨within, rfl⟩

/-- Deeper levels, if there are any, deliver the files of nodes that were just read. -/
def Loading.Deeper.Delivers (base : Option String) (read : Reader) (allowed : Failure → Prop)
    (deeper : Loading.Deeper) : Prop :=
  ∀ loads ∈ deeper, ∀ (origin : Origin) nodes, Node.FreshAll nodes →
    Node.Every (Node.Placed (origin.Owns allowed)) nodes →
      Satisfies (loads origin nodes) (Node.DeliveredAll base read nodes) allowed

theorem satisfies_loadTemplate (admits : read.Admits allowed)
    (delivers : deeper.Delivers base read allowed) {origin : Origin} {span : Span}
    (owned : origin.Owns allowed span) {path : String} {bytes : List UInt8}
    (found : read path = .ok bytes) :
    Satisfies
      (loadTemplate (.plain base read maxDepth) deeper origin span path (Text.decodeLossy bytes))
      (fun loaded => ∃ document : Document, document.IsOf path bytes ∧
        loaded.span = document.span ∧ Node.DeliveredAll base read document.nodes loaded.nodes)
      allowed := by
  cases deeper with
  | none => exact .throw (owned.blames _)
  | some loads =>
      have reads := (satisfies_ofSource_isOf path bytes).mono (fun _ => id)
        fun failure => admits path bytes failure found
      refine .bind (Loading.satisfies_noting reads) ?_
      intro document isOf
      have ownedNodes : Node.Every
          (Node.Placed (Origin.Owns allowed ⟨some path, some (Text.decodeLossy bytes)⟩))
          document.nodes :=
        fun node inside => (isOf.within node inside).mono fun _ => admits.owns found
      refine .bind (delivers loads rfl _ _ isOf.freshAll ownedNodes) ?_
      intro nodes delivered
      exact .pure ⟨document, isOf, rfl, delivered⟩

/-- What is known of a reference and of the nodes of its file when it is delivered. -/
def FileUse.Delivers (base : Option String) (read : Reader) (use : FileUse) (span : Span)
    (reference : Reference) (found : Reference × List Node) : Prop :=
  ∃ path bytes, reference.LeadsTo (resolvePath base) read span.file path bytes ∧
    ((∃ filters, use = .raw filters) ∧ found = (reference.fetched path bytes, []) ∨
      (∀ filters, use ≠ .raw filters) ∧ ∃ document : Document, document.IsOf path bytes ∧
        found.1 = { reference.fetched path bytes with root := some document.span } ∧
          Node.DeliveredAll base read document.nodes found.2)

theorem satisfies_loadReference (admits : read.Admits allowed)
    (delivers : deeper.Delivers base read allowed) {origin : Origin} {span : Span}
    (owned : origin.Owns allowed span) (use : FileUse) {reference : Reference}
    (unknown : reference.Open) :
    Satisfies (loadReference (.plain base read maxDepth) deeper origin span use reference [])
      (use.Delivers base read span reference) allowed := by
  have unread : reference.contents = none := congrArg Reference.contents unknown
  unfold loadReference
  rw [unread]
  refine .bind (Loading.satisfies_require fun cause _ => owned.blames cause) ?_
  intro path resolves
  refine .bind (Loading.satisfies_require fun cause _ => owned.blames cause) ?_
  intro bytes found
  have leads : reference.LeadsTo (resolvePath base) read span.file path bytes := by
    refine ⟨resolvePath_eq_ok_of_file resolves owned.writes, ?_⟩
    unfold LoadOptions.bytesOf at found
    split at found
    · cases found
      assumption
    · cases found
  refine .bind (.modify _) ?_
  intro _ _
  cases use with
  | raw filters => exact .pure ⟨path, bytes, leads, .inl ⟨⟨filters, rfl⟩, rfl⟩⟩
  | inclusion | inheritance =>
      refine .bind (satisfies_loadTemplate admits delivers owned leads.reads) ?_
      rintro loaded ⟨document, isOf, root, delivered⟩
      refine .pure ⟨path, bytes, leads, .inr ⟨by simp, document, isOf, ?_, delivered⟩⟩
      rw [← root]
      rfl

mutual

theorem satisfies_loadNode (admits : read.Admits allowed)
    (delivers : deeper.Delivers base read allowed) {origin : Origin} :
    ∀ {node : Node}, node.Fresh → node.Placed (origin.Owns allowed) →
      Satisfies (loadNode (.plain base read maxDepth) deeper origin node)
        (Node.Delivered base read node) allowed
  | .leaf .., _, _ => by
      unfold loadNode
      exact .pure (.leaf _ _)
  | .branch _ _ children, fresh, placed => by
      unfold loadNode
      exact .bind (satisfies_loadNodes admits delivers fresh (Node.placed_branch.mp placed).2.2)
        fun _ filled => .pure (.branch _ _ filled)
  | .file span use reference loaded children, ⟨unknown, noNodes, fresh⟩, placed => by
      rcases Node.placed_file.mp placed with ⟨owned, -, -, -, ownedChildren⟩
      subst noNodes
      unfold loadNode
      refine .bind (satisfies_loadReference admits delivers owned use unknown) ?_
      rintro ⟨found, nodes⟩ ⟨path, bytes, leads, delivered⟩
      rcases delivered with ⟨⟨filters, rfl⟩, ⟨⟩⟩ | ⟨template, document, isOf, same, nodesDelivered⟩
      · exact .pure (.raw filters children unknown leads)
      · dsimp only at same nodesDelivered
        subst same
        cases use with
        | raw filters => exact absurd rfl (template filters)
        | inheritance => exact .pure (.inheritance children unknown leads isOf nodesDelivered)
        | inclusion body =>
            exact .bind (satisfies_loadNodes admits delivers fresh ownedChildren) fun _ filled =>
              .pure (.inclusion body unknown leads isOf nodesDelivered filled)

theorem satisfies_loadNodes (admits : read.Admits allowed)
    (delivers : deeper.Delivers base read allowed) {origin : Origin} :
    ∀ {nodes : List Node}, Node.FreshAll nodes →
      Node.Every (Node.Placed (origin.Owns allowed)) nodes →
        Satisfies (loadNodes (.plain base read maxDepth) deeper origin nodes)
          (Node.DeliveredAll base read nodes) allowed
  | [], _, _ => by
      unfold loadNodes
      exact .pure .nil
  | _ :: _, ⟨fresh, freshRest⟩, placed => by
      rw [Node.every_cons] at placed
      unfold loadNodes
      exact .bind (satisfies_loadNode admits delivers fresh placed.1) fun _ filled =>
        .bind (satisfies_loadNodes admits delivers freshRest placed.2) fun _ others =>
          .pure (.cons filled others)

end

theorem delivers_loadLevels (admits : read.Admits allowed) (remaining : Nat) :
    (loadLevels (.plain base read maxDepth) remaining).Delivers base read allowed := by
  induction remaining with
  | zero => simp [Loading.Deeper.Delivers, loadLevels]
  | succ remaining ih =>
      rintro _ ⟨⟩ origin nodes fresh placed
      exact satisfies_loadNodes admits ih fresh placed

/-- Loading delivers the files of a document that was just read, or meets a failure that is
allowed. -/
theorem satisfies_load_delivered (admits : read.Admits allowed) {document : Document}
    {origin : Origin} (fresh : Node.FreshAll document.nodes)
    (owned : Node.Every (Node.Placed (origin.Owns allowed)) document.nodes) :
    Satisfies (load document origin (.plain base read maxDepth))
      (fun loaded => loaded.span = document.span ∧
        Node.DeliveredAll base read document.nodes loaded.nodes)
      allowed := by
  intro events
  let options : LoadOptions := .plain base read maxDepth
  have levels : (loadLevels options options.maxDepth).Delivers base read allowed :=
    delivers_loadLevels admits options.maxDepth
  have delivers : Satisfies
      (loadNodes options (loadLevels options options.maxDepth) origin document.nodes)
      (Node.DeliveredAll base read document.nodes) allowed :=
    satisfies_loadNodes admits levels fresh owned
  have delivered := delivers { events := events }
  unfold load
  dsimp only
  revert delivered
  cases loadNodes options (loadLevels options options.maxDepth) origin document.nodes
      { events := events } with
  | ok nodes state => exact fun delivered => ⟨rfl, delivered⟩
  | error failure state => exact id

end

/-! ### Loading what is loaded -/

section

variable (options : LoadOptions) (deeper : Loading.Deeper) (origin : Origin) (state : LoadState)

mutual

/-- Nothing is read, nor noted, where the texts of the files are known. -/
theorem loadNode_eq_of_filled : ∀ {node : Node}, node.Filled →
    loadNode options deeper origin node state = .ok node state
  | .leaf .., _ => rfl
  | .branch _ _ children, filled => by
      unfold loadNode
      exact (bind_of_ok (loadNodes_eq_of_filledAll filled)).trans rfl
  | .file span use reference loaded children, filled => by
      have known : reference.contents.isSome := by
        cases use with
        | raw => exact filled.contents
        | inheritance | inclusion => exact filled.1.contents
      rcases Option.isSome_iff_exists.mp known with ⟨contents, isContents⟩
      have same : loadReference options deeper origin span use reference loaded state =
          .ok (reference, loaded) state := by
        unfold loadReference
        rw [isContents]
        rfl
      unfold loadNode
      rw [bind_of_ok same]
      cases use with
      | raw | inheritance => rfl
      | inclusion body => exact (bind_of_ok (loadNodes_eq_of_filledAll filled.2.2.2)).trans rfl

theorem loadNodes_eq_of_filledAll : ∀ {nodes : List Node}, Node.FilledAll nodes →
    loadNodes options deeper origin nodes state = .ok nodes state
  | [], _ => rfl
  | _ :: _, filled => by
      unfold loadNodes
      rw [bind_of_ok (loadNode_eq_of_filled filled.1),
        bind_of_ok (loadNodes_eq_of_filledAll filled.2)]
      rfl

end

end

/-- Loading delivers to a document that was just read all files that it refers to, directly or
through other templates, and changes nothing else; and when it is loaded once more, however files
may be found and read by then, it stays the same and no file is read. -/
theorem load_delivers (base : Option String) (read : Reader) (maxDepth : Nat)
    (tokens : List Token) (file source text : Option String)
    {events noted before after : Array Event} {document loaded : Document}
    (parsed : parse tokens { file, source } events = .ok document noted)
    (done : load document ⟨file, text⟩ (.plain base read maxDepth) before = .ok loaded after) :
    loaded.span = document.span ∧ Node.DeliveredAll base read document.nodes loaded.nodes ∧
      ∀ (options : LoadOptions) (origin : Origin) (events : Array Event),
        load loaded origin options events = .ok loaded (events.push (.loaded 0 origin.file)) := by
  have fresh := (satisfies_parse (fun _ => Node.Fresh) tokens file source).value
    (congrArg outcome parsed)
  have unread := (satisfies_parse (fun _ => Node.Unread) tokens file source).value
    (congrArg outcome parsed)
  let anyFailure : Failure → Prop := fun _ => True
  let site : Site := ⟨file, source, Origin.Owns anyFailure ⟨file, text⟩⟩
  have owned (span : Span) : site.Owns span := by
    refine ⟨fun name known => ?_, fun _ => trivial⟩
    have named : file = some name := known
    simp [site, named]
  have tokensOwned : ∀ token ∈ tokens, site.Owns token.span := fun token _ => owned token.span
  have written := (placed_parse site tokensOwned (owned _)).value (congrArg outcome parsed)
  have admits : read.Admits anyFailure := fun _ _ _ _ _ => trivial
  have delivers : Satisfies (load document ⟨file, text⟩ (.plain base read maxDepth)) _ _ :=
    satisfies_load_delivered admits (Node.freshAll_iff_every.mpr fresh) written.2
  have fills : Satisfies (load document ⟨file, text⟩ (.plain base read maxDepth)) _ _ :=
    satisfies_load rfl (Node.unreadAll_iff_every.mpr unread) _
  rcases delivers.value (congrArg outcome done) with ⟨root, delivered⟩
  have filled := fills.value (congrArg outcome done)
  refine ⟨root, delivered, fun options origin events => ?_⟩
  unfold load
  dsimp only
  rw [loadNodes_eq_of_filledAll _ _ _ _ filled]

/-- A template in a directory below that of the page, and a file next to it. -/
def partFiles : Reader
  | "site/parts/list.pg" => .ok (Text.encode "li\n  include item.txt")
  | "site/parts/item.txt" => .ok [0xFF, 0x61]
  | _ => .error "no such file"

/-- The tokens of a page that includes a template. -/
def partTokens : List Token :=
  [⟨.inclusion, ⟨some "site/page.pg", 1, 1⟩, ⟨1, 8⟩⟩,
    ⟨.path "parts/list.pg", ⟨some "site/page.pg", 1, 9⟩, ⟨1, 22⟩⟩,
    ⟨.eos, ⟨some "site/page.pg", 1, 22⟩, ⟨1, 22⟩⟩]

theorem load_delivers_parts :
    ∃ document noted loaded after,
      parse partTokens { file := some "site/page.pg" } #[] = .ok document noted ∧
      load document ⟨some "site/page.pg", none⟩ (.plain none partFiles 64) #[] =
        .ok loaded after ∧
      Node.DeliveredAll none partFiles document.nodes loaded.nodes ∧
      load loaded ⟨none, none⟩ { read := fun _ => .error "closed" } #[] =
        .ok loaded #[.loaded 0 none] := by
  have check : (outcome (parse partTokens { file := some "site/page.pg" } #[])).toOption.any
      (fun document => (outcome (load document ⟨some "site/page.pg", none⟩
        (.plain none partFiles 64) #[])).isOk) = true := by
    decide +kernel
  cases parsed : parse partTokens { file := some "site/page.pg" } #[] with
  | error fault noted => simp [parsed, outcome, Except.toOption] at check
  | ok document noted =>
      cases done : load document ⟨some "site/page.pg", none⟩ (.plain none partFiles 64) #[] with
      | error failure after =>
          simp [parsed, done, outcome, Except.toOption, Except.isOk, Except.toBool] at check
      | ok loaded after =>
          rcases load_delivers none partFiles 64 partTokens _ none none parsed done with
            ⟨-, delivered, again⟩
          exact ⟨document, noted, loaded, after, rfl, done, delivered, again _ ⟨none, none⟩ #[]⟩

end Offside
