import Offside.Inclusion.Sources
import Offside.Proofs.Inclusion.Delivery

/-!
# The sources of a loaded document

The texts of the templates in a loaded document are gathered on a walk that enters each file once.
Still none is missed: when a file is passed over, then the files to which it refers are known
already, or will be when the walk is over. So for every span in the document the text of its file is
at hand.
-/

namespace Offside

namespace Sources

/-- The sources with a template and those to which it refers, unless the file is known already. -/
def withFile (sources : Sources) (path contents : String) (loaded : List Node) : Sources :=
  if (sources.find? (some path)).isSome then sources
  else addNodes (sources ++ [(some path, contents)]) loaded

/-- The text of a file is known. -/
def Knows (sources : Sources) (path : String) : Prop :=
  (sources.find? (some path)).isSome

/-- All texts that are known stay the same. -/
def Extends (after before : Sources) : Prop :=
  ∀ file text, before.find? file = some text → after.find? file = some text

theorem Extends.knows {after before : Sources} (more : after.Extends before) {path : String}
    (knows : before.Knows path) : after.Knows path := by
  rcases Option.isSome_iff_exists.mp knows with ⟨text, found⟩
  exact Option.isSome_iff_exists.mpr ⟨text, more _ _ found⟩

end Sources

namespace Node

mutual

/-- The files of the templates to which a node and the nodes of its body refer are known. -/
def KnownIn (sources : Sources) : Node → Prop
  | .leaf .. => True
  | .branch _ _ children => KnownAllIn sources children
  | .file _ (.raw _) _ _ _ => True
  | .file _ .inheritance reference _ _ => ∀ path ∈ reference.fullPath, sources.Knows path
  | .file _ (.inclusion _) reference _ children =>
      (∀ path ∈ reference.fullPath, sources.Knows path) ∧ KnownAllIn sources children

/-- The files of the templates to which some nodes and the nodes of their bodies refer are known. -/
def KnownAllIn (sources : Sources) : List Node → Prop
  | [] => True
  | node :: rest => node.KnownIn sources ∧ KnownAllIn sources rest

end

mutual

theorem KnownIn.mono {before after : Sources} (more : after.Extends before) :
    ∀ {node : Node}, node.KnownIn before → node.KnownIn after
  | .leaf .., _ => trivial
  | .branch .., known => KnownAllIn.mono more known
  | .file _ use _ _ _, known => by
      cases use with
      | raw filters => exact trivial
      | inheritance => exact fun path isPath => more.knows (known path isPath)
      | inclusion body =>
          exact ⟨fun path isPath => more.knows (known.1 path isPath), KnownAllIn.mono more known.2⟩

theorem KnownAllIn.mono {before after : Sources} (more : after.Extends before) :
    ∀ {nodes : List Node}, KnownAllIn before nodes → KnownAllIn after nodes
  | [], _ => trivial
  | _ :: _, known => ⟨known.1.mono more, KnownAllIn.mono more known.2⟩

end

mutual

/-- Where nothing is known of any file there is nothing to add. -/
theorem addNode_of_fresh (sources : Sources) : ∀ {node : Node}, node.Fresh →
    sources.addNode node = sources
  | .leaf .., _ => rfl
  | .branch .., fresh => addNodes_of_freshAll sources fresh
  | .file _ use reference _ _, fresh => by
      have unknown : reference.fullPath = none := congrArg Reference.fullPath fresh.1
      cases use with
      | raw filters => rfl
      | inheritance | inclusion =>
          unfold Sources.addNode
          rw [unknown]
          exact addNodes_of_freshAll sources fresh.2.2

theorem addNodes_of_freshAll (sources : Sources) : ∀ {nodes : List Node}, FreshAll nodes →
    sources.addNodes nodes = sources
  | [], _ => rfl
  | _ :: _, fresh => by
      unfold Sources.addNodes
      rw [addNode_of_fresh sources fresh.1]
      exact addNodes_of_freshAll sources fresh.2

end

end Node

namespace Sources

section

variable (base : Option String) (read : Reader)

/-- The text of a file is known, and so are the files of the templates to which it refers. -/
structure Covers (sources : Sources) (path : String) (bytes : List UInt8) : Prop where
  reads : read path = .ok bytes
  text : sources.find? (some path) = some (Text.decodeLossy bytes)
  templates : ∀ {document : Document} {loaded}, document.IsOf path bytes →
    Node.DeliveredAll base read document.nodes loaded → Node.KnownAllIn sources loaded

/-- All texts that are known stay the same, and each file that becomes known is covered. -/
structure Grows (before after : Sources) : Prop where
  more : after.Extends before
  covers : ∀ {path}, ¬before.Knows path → after.Knows path →
    ∃ bytes, Covers base read after path bytes

end

variable {base : Option String} {read : Reader} {before middle after sources : Sources}
  {path : String} {bytes : List UInt8}

theorem Covers.mono (covers : Covers base read before path bytes) (more : after.Extends before) :
    Covers base read after path bytes where
  reads := covers.reads
  text := more _ _ covers.text
  templates isOf delivered := (covers.templates isOf delivered).mono more

namespace Grows

theorem refl : Grows base read sources sources where
  more _ _ := id
  covers unknown known := absurd known unknown

theorem trans (first : Grows base read before middle) (second : Grows base read middle after) :
    Grows base read before after where
  more file text found := second.more file text (first.more file text found)
  covers {path} unknown known := by
    by_cases already : middle.Knows path
    · rcases first.covers unknown already with ⟨bytes, covers⟩
      exact ⟨bytes, covers.mono second.more⟩
    · exact second.covers already known

end Grows

/-- The files of some nodes are gathered: what is new is covered, and what they refer to is known.
-/
structure Gathers (base : Option String) (read : Reader) (before after : Sources)
    (nodes : List Node) : Prop where
  grows : Grows base read before after
  known : Node.KnownAllIn after nodes

section

variable {contents : String}

theorem extends_append (others : Sources) : Extends (sources ++ others) sources := by
  intro file text found
  rw [find?, List.lookup_append, ← find?, found]
  rfl

theorem find?_append_self (unknown : ¬sources.Knows path) :
    find? (sources ++ [(some path, contents)]) (some path) = some contents := by
  have absent : sources.find? (some path) = none := by simpa [Knows] using unknown
  rw [find?, List.lookup_append, ← find?, absent]
  simp

theorem knows_append {other : String}
    (known : Knows (sources ++ [(some path, contents)]) other) :
    sources.Knows other ∨ other = path := by
  by_cases same : other = path
  · exact .inr same
  · refine .inl ?_
    simpa [Knows, find?, List.lookup_append, same] using known

end

/-- A file is gathered with the files of its nodes. -/
theorem grows_withFile (sources : Sources) {document : Document} {loaded : List Node}
    (reads : read path = .ok bytes) (isOf : document.IsOf path bytes)
    (delivered : Node.DeliveredAll base read document.nodes loaded)
    (gathers : ∀ sources, Gathers base read sources (sources.addNodes loaded) loaded) :
    Grows base read sources (sources.withFile path (Text.decodeLossy bytes) loaded) ∧
      (sources.withFile path (Text.decodeLossy bytes) loaded).Knows path := by
  unfold withFile
  split
  · next known => exact ⟨.refl, known⟩
  · next unknown =>
      let extended : Sources := sources ++ [(some path, Text.decodeLossy bytes)]
      have inside : Gathers base read extended (extended.addNodes loaded) loaded := gathers extended
      have covers : Covers base read (extended.addNodes loaded) path bytes := by
        refine ⟨reads, inside.grows.more _ _ (find?_append_self unknown), ?_⟩
        intro other otherLoaded again deliveredAgain
        obtain rfl := isOf.unique again
        rw [← delivered.unique deliveredAgain]
        exact inside.known
      refine ⟨⟨fun file text found => ?_, fun {other} otherUnknown known => ?_⟩, ?_⟩
      · exact inside.grows.more _ _ (extends_append _ _ _ found)
      · by_cases already : extended.Knows other
        · obtain rfl := (knows_append already).resolve_left otherUnknown
          exact ⟨bytes, covers⟩
        · exact inside.grows.covers already known
      · exact Option.isSome_of_eq_some covers.text

theorem addNode_template {span : Span} {use : FileUse} (template : ∀ filters, use ≠ .raw filters)
    {reference : Reference} {root : Span} {loaded children : List Node} :
    sources.addNode (.file span use { reference.fetched path bytes with root := some root } loaded
        children) =
      (sources.withFile path (Text.decodeLossy bytes) loaded).addNodes children := by
  cases use with
  | raw filters => exact absurd rfl (template filters)
  | inheritance | inclusion =>
      unfold addNode withFile
      dsimp only [Reference.fetched]
      split <;> rfl

mutual

theorem gathers_addNode : ∀ {node filled : Node}, Node.Delivered base read node filled →
    node.Fresh → ∀ sources, Gathers base read sources (sources.addNode filled) [filled]
  | _, _, .leaf .., _, sources => ⟨.refl, trivial, trivial⟩
  | _, _, .branch _ _ delivered, fresh, sources =>
      have inside := gathers_addNodes delivered fresh sources
      ⟨inside.grows, inside.known, trivial⟩
  | _, _, .raw .., _, sources => ⟨.refl, trivial, trivial⟩
  | _, _, .inheritance children unknown leads isOf delivered, fresh, sources => by
      have gathers := gathers_addNodes delivered isOf.freshAll
      rcases grows_withFile sources leads.reads isOf delivered gathers with
        ⟨grows, known⟩
      rw [addNode_template (by simp), Node.addNodes_of_freshAll _ fresh.2.2]
      refine ⟨grows, ?_, trivial⟩
      rintro _ ⟨⟩
      exact known
  | _, _, .inclusion body unknown leads isOf delivered given, fresh, sources => by
      have gathers := gathers_addNodes delivered isOf.freshAll
      rcases grows_withFile sources leads.reads isOf delivered gathers with
        ⟨grows, known⟩
      have inside := gathers_addNodes given fresh.2.2
      rw [addNode_template (by simp)]
      refine ⟨grows.trans (inside _).grows, ⟨?_, (inside _).known⟩, trivial⟩
      rintro _ ⟨⟩
      exact (inside _).grows.more.knows known

theorem gathers_addNodes : ∀ {nodes filled : List Node}, Node.DeliveredAll base read nodes filled →
    Node.FreshAll nodes → ∀ sources, Gathers base read sources (sources.addNodes filled) filled
  | _, _, .nil, _, sources => ⟨.refl, trivial⟩
  | _, _, .cons delivered rest, fresh, sources => by
      have first := gathers_addNode delivered fresh.1 sources
      have others := gathers_addNodes rest fresh.2
      unfold addNodes
      exact ⟨first.grows.trans (others _).grows, first.known.1.mono (others _).grows.more,
        (others _).known⟩

end

/-- Each file that is known is covered. -/
def Closed (base : Option String) (read : Reader) (sources : Sources) : Prop :=
  ∀ path, sources.Knows path → ∃ bytes, Covers base read sources path bytes

/-- The walk over a loaded document starts with the text of its own file, and each file that it
meets is covered in the end. -/
theorem closed_ofDocument {document loaded : Document} (reads : read path = .ok bytes)
    (isOf : document.IsOf path bytes)
    (delivered : Node.DeliveredAll base read document.nodes loaded.nodes) :
    Closed base read (ofDocument (some path) (Text.decodeLossy bytes) loaded) ∧
      (ofDocument (some path) (Text.decodeLossy bytes) loaded).Knows path := by
  rcases grows_withFile [] reads isOf delivered (gathers_addNodes delivered isOf.freshAll) with
    ⟨grows, known⟩
  exact ⟨fun _ => grows.covers (by simp [Knows, find?]), known⟩

theorem Closed.covers (closed : Closed base read sources) (known : sources.Knows path)
    (reads : read path = .ok bytes) : Covers base read sources path bytes := by
  rcases closed path known with ⟨found, covers⟩
  obtain rfl := Except.ok.inj (reads.symm.trans covers.reads)
  exact covers

/-! ### The places in a loaded document -/

/-- A span lies on a line of the text of its file, which is known. -/
def Shows (sources : Sources) (span : Span) : Prop :=
  ∃ path text, sources.find? (some path) = some text ∧ span.Within (some path) text

theorem Covers.every_shows (covers : Covers base read sources path bytes) {document : Document}
    (isOf : document.IsOf path bytes) : Node.Every (Node.Placed sources.Shows) document.nodes :=
  fun node member => (isOf.within node member).mono fun _ within => ⟨path, _, covers.text, within⟩

mutual

theorem placed_of_delivered (closed : Closed base read sources) :
    ∀ {node filled : Node}, Node.Delivered base read node filled →
      node.Placed sources.Shows → filled.KnownIn sources → filled.Placed sources.Shows
  | _, _, .leaf .., placed, _ => placed
  | _, _, .branch _ _ delivered, placed, known => by
      rw [Node.placed_branch] at placed ⊢
      exact ⟨placed.1, placed.2.1, every_of_deliveredAll closed delivered placed.2.2 known⟩
  | _, _, .raw .., placed, _ => by
      rw [Node.placed_file] at placed ⊢
      exact placed
  | _, _, .inheritance _ _ leads isOf delivered, placed, known => by
      have covers := closed.covers (known _ rfl) leads.reads
      have inside := every_of_deliveredAll closed delivered (covers.every_shows isOf)
        (covers.templates isOf delivered)
      rw [Node.placed_file] at placed ⊢
      exact ⟨placed.1, placed.2.1, placed.2.2.1, inside, placed.2.2.2.2⟩
  | _, _, .inclusion _ _ leads isOf delivered given, placed, known => by
      have covers := closed.covers (known.1 _ rfl) leads.reads
      have inside := every_of_deliveredAll closed delivered (covers.every_shows isOf)
        (covers.templates isOf delivered)
      rw [Node.placed_file] at placed ⊢
      exact ⟨placed.1, placed.2.1, placed.2.2.1, inside,
        every_of_deliveredAll closed given placed.2.2.2.2 known.2⟩

theorem every_of_deliveredAll (closed : Closed base read sources) :
    ∀ {nodes filled : List Node}, Node.DeliveredAll base read nodes filled →
      Node.Every (Node.Placed sources.Shows) nodes → Node.KnownAllIn sources filled →
        Node.Every (Node.Placed sources.Shows) filled
  | _, _, .nil, _, _ => Node.every_nil
  | _, _, .cons delivered rest, placed, known => by
      rw [Node.every_cons] at placed ⊢
      exact ⟨placed_of_delivered closed delivered placed.1 known.1,
        every_of_deliveredAll closed rest placed.2 known.2⟩

end

/-- All spans of a loaded document, at any depth, lie on lines of the texts that are gathered. -/
theorem every_shows_ofDocument {document loaded : Document} (reads : read path = .ok bytes)
    (isOf : document.IsOf path bytes)
    (delivered : Node.DeliveredAll base read document.nodes loaded.nodes) :
    Node.Every (Node.Placed (ofDocument (some path) (Text.decodeLossy bytes) loaded).Shows)
      loaded.nodes := by
  rcases closed_ofDocument reads isOf delivered with ⟨closed, known⟩
  have covers := closed.covers known reads
  exact every_of_deliveredAll closed delivered (covers.every_shows isOf)
    (covers.templates isOf delivered)

end Sources

end Offside
