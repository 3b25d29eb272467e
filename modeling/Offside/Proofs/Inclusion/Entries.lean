import Offside.Proofs.Layout.RoundTrip

/-!
# Templates with includes

The files that a template includes are loaded, each with its own includes, and are put in their
places. What is left to render are the elements that the entries of the template stand for.
-/

namespace Offside

open Computing

namespace Entry

/-- The files of the includes among some entries can be read, from the file in which the entries are
written: each of them holds what it is included for, and its own files are nested one level less
deep. -/
inductive Available (options : LoadOptions) : (depth : Nat) → (file : Option String) →
    List Entry → Prop where
  | nil {depth : Nat} {file : Option String} : Available options depth file []
  | element {depth : Nat} {file : Option String} {name : ElementName} {text : Option ElementText}
      {children rest : List Entry} (inside : Available options depth file children)
      (following : Available options depth file rest) :
      Available options depth file (.element name text children :: rest)
  | inclusion {depth : Nat} {file : Option String} {path : TemplatePath}
      {included rest : List Entry} {full : String} {bytes : List UInt8} {unit : IndentUnit}
      {lines : List (List Char)} (found : options.resolve path.value file = .ok full)
      (readable : options.read full = .ok bytes) (layout : Layout unit 0 included lines)
      (written : WrittenIn (Text.decodeLossy bytes) lines)
      (inside : Available options depth (some full) included)
      (following : Available options (depth + 1) file rest) :
      Available options (depth + 1) file (.inclusion path included :: rest)

/-- Entries as they are loaded: each include holds the nodes of its file. -/
inductive Loaded : List Entry → List Node → Prop where
  | nil : Loaded [] []
  | element {name : ElementName} {text : Option ElementText} {children rest : List Entry}
      {span textSpan : Span} {inside others : List Node} (loadedInside : Loaded children inside)
      (following : Loaded rest others) :
      Loaded (.element name text children :: rest)
        (elementNode name.value span textSpan text inside :: others)
  | inclusion {path : TemplatePath} {included rest : List Entry} {span body root : Span}
      {reference : Reference} {loaded others : List Node} (isRoot : reference.root = some root)
      (loadedInside : Loaded included loaded) (following : Loaded rest others) :
      Loaded (.inclusion path included :: rest)
        (.file span (.inclusion body) reference loaded [] :: others)

end Entry

/-! ### Loading -/

section

variable {options : LoadOptions} {deeper : Loading.Deeper} {origin : Origin}

/-- The text on the line of an element refers to no file. -/
theorem loadNodes_lineNodes_eq {span : Span} {text : Option ElementText} {nodes loaded : List Node}
    {state after : LoadState}
    (done : loadNodes options deeper origin nodes state = .ok loaded after) :
    loadNodes options deeper origin (lineNodes span text ++ nodes) state =
      .ok (lineNodes span text ++ loaded) after := by
  cases text with
  | none => exact done
  | some content =>
      have leaf : loadNode options deeper origin (.leaf span (.text content.value false)) state =
          .ok (.leaf span (.text content.value false)) state := by
        rw [loadNode]
        rfl
      rw [lineNodes, List.cons_append, loadNodes]
      exact (bind_of_ok leaf).trans (bind_of_ok done)

theorem loadNode_elementNode_eq {name : String} {span textSpan : Span} {text : Option ElementText}
    {inside loaded : List Node} {state after : LoadState}
    (done : loadNodes options deeper origin inside state = .ok loaded after) :
    loadNode options deeper origin (elementNode name span textSpan text inside) state =
      .ok (elementNode name span textSpan text loaded) after := by
  unfold elementNode tagNode loadNode
  exact bind_of_ok (loadNodes_lineNodes_eq done)

theorem loadNodes_cons_eq {node loadedNode : Node} {rest loaded : List Node}
    {state middle after : LoadState}
    (first : loadNode options deeper origin node state = .ok loadedNode middle)
    (others : loadNodes options deeper origin rest middle = .ok loaded after) :
    loadNodes options deeper origin (node :: rest) state = .ok (loadedNode :: loaded) after := by
  rw [loadNodes]
  exact (bind_of_ok first).trans (bind_of_ok others)

/-- The text of an included file is read, and its nodes are loaded one level deeper. -/
theorem exists_loadTemplate_eq (plain : options.extensions = {})
    {load : Origin → List Node → Loading (List Node)} {full text : String}
    {included : List Entry} {unit : IndentUnit} {lines : List (List Char)}
    (layout : Entry.Layout unit 0 included lines) (written : WrittenIn text lines)
    (loads : ∀ {nodes : List Node}, Entry.Parsed included nodes → ∀ (source : Option String)
      (state : LoadState), ∃ loaded after,
        load ⟨some full, source⟩ nodes state = .ok loaded after ∧ Entry.Loaded included loaded)
    (span : Span) (state : LoadState) :
    ∃ document after, loadTemplate options (some load) origin span full text state =
      .ok document after ∧ Entry.Loaded included document.nodes := by
  rcases exists_ofSource_eq_of_entries (some full) state.events layout written
    with ⟨document, eventsBetween, ofSource, parsed⟩
  rcases loads parsed (some text) ⟨state.files, eventsBetween⟩ with ⟨loaded, after, done, isLoaded⟩
  have noted : Loading.noting (Document.ofSource options.extensions (some full) text) state =
      .ok document ⟨state.files, eventsBetween⟩ := by
    rw [plain]
    simp only [Loading.noting, ofSource]
  exact ⟨{ document with nodes := loaded }, after, (bind_of_ok noted).trans (bind_of_ok done),
    isLoaded⟩

/-- The file of an include is read, and its nodes are put into the include. -/
theorem exists_loadNode_eq_of_inclusion (plain : options.extensions = {})
    {load : Origin → List Node → Loading (List Node)} {file : Option String} {path full : String}
    {bytes : List UInt8} {included : List Entry} {unit : IndentUnit} {lines : List (List Char)}
    (found : options.resolve path file = .ok full) (readable : options.read full = .ok bytes)
    (layout : Entry.Layout unit 0 included lines)
    (written : WrittenIn (Text.decodeLossy bytes) lines)
    (loads : ∀ {nodes : List Node}, Entry.Parsed included nodes → ∀ (source : Option String)
      (state : LoadState), ∃ loaded after,
        load ⟨some full, source⟩ nodes state = .ok loaded after ∧ Entry.Loaded included loaded)
    (span body pathSpan : Span) (source : Option String) (state : LoadState) :
    ∃ reference root loaded after,
      loadNode options (some load) ⟨file, source⟩
          (.file span (.inclusion body) { span := pathSpan, path } [] []) state =
        .ok (.file span (.inclusion body) reference loaded []) after ∧
        reference.root = some root ∧ Entry.Loaded included loaded := by
  let origin : Origin := ⟨file, source⟩
  let contents := Text.decodeLossy bytes
  let counted : LoadState :=
    ⟨state.files + 1, state.events.push (.fileRead full bytes.length)⟩
  have resolved : Loading.require origin span (options.resolve path file) state =
      .ok full state := by
    rw [found]
    rfl
  have bytesRead : Loading.require origin span (options.bytesOf full) state = .ok bytes state := by
    simp only [LoadOptions.bytesOf, readable]
    rfl
  rcases exists_loadTemplate_eq plain layout written loads span counted
    with ⟨document, after, template, isLoaded⟩
  let reference : Reference :=
    ⟨pathSpan, path, some full, some contents, some bytes, some document.span⟩
  have referenced : loadReference options (some load) origin span (.inclusion body)
      { span := pathSpan, path } [] state = .ok (reference, document.nodes) after :=
    (bind_of_ok resolved).trans ((bind_of_ok bytesRead).trans
      ((bind_of_ok rfl).trans (bind_of_ok template)))
  refine ⟨reference, document.span, document.nodes, after, ?_, rfl, isLoaded⟩
  unfold loadNode
  refine (bind_of_ok referenced).trans ?_
  unfold loadNodes
  rfl

/-- Where all files are available, loading puts into each include what its file holds. -/
theorem Entry.Available.exists_loadNodes_eq (plain : options.extensions = {}) {depth : Nat}
    {file : Option String} {entries : List Entry} (available : Available options depth file entries)
    {nodes : List Node} (parsed : Parsed entries nodes) (source : Option String)
    (state : LoadState) :
    ∃ loaded after, loadNodes options (loadLevels options depth) ⟨file, source⟩ nodes state =
      .ok loaded after ∧ Loaded entries loaded := by
  induction available generalizing nodes source state with
  | nil =>
      cases parsed
      exact ⟨[], state, by rw [loadNodes]; rfl, .nil⟩
  | element _ _ loadsInside loadsFollowing =>
      cases parsed with
      | element parsedInside parsedFollowing =>
          rcases loadsInside parsedInside source state with ⟨inside, middle, done, isLoaded⟩
          rcases loadsFollowing parsedFollowing source middle with ⟨others, last, rest, areLoaded⟩
          exact ⟨_, last, loadNodes_cons_eq (loadNode_elementNode_eq done) rest,
            .element isLoaded areLoaded⟩
  | inclusion found readable layout written _ _ loadsInside loadsFollowing =>
      cases parsed with
      | inclusion parsedFollowing =>
          rcases exists_loadNode_eq_of_inclusion plain found readable layout written
            loadsInside _ _ _ source state with ⟨reference, root, inside, middle, done, isRoot,
              isLoaded⟩
          rcases loadsFollowing parsedFollowing source middle with ⟨others, last, rest, areLoaded⟩
          exact ⟨_, last, loadNodes_cons_eq done rest, .inclusion isRoot isLoaded areLoaded⟩

end

/-! ### Linking -/

theorem Stands.append {first second : List Element} {nodes others : List Node}
    (stands : Stands first nodes) (following : Stands second others) :
    Stands (first ++ second) (nodes ++ others) := by
  induction stands with
  | nil => exact following
  | cons standsInside _ _ standsFollowing => exact .cons standsInside standsFollowing

theorem walkAll_lineNodes_append (span : Span) (text : Option ElementText) (nodes : List Node) :
    ∀ node ∈ Node.walkAll (lineNodes span text ++ nodes),
      node ∈ lineNodes span text ∨ node ∈ Node.walkAll nodes := by
  cases text <;> simp [lineNodes, Node.walkAll, Node.walk]

/-- No template of elements and includes extends another one. -/
theorem Entry.Loaded.isInheritance_eq_false {entries : List Entry} {nodes : List Node}
    (loaded : Loaded entries nodes) : ∀ node ∈ Node.walkAll nodes, node.isInheritance = false := by
  induction loaded with
  | nil => simp [Node.walkAll]
  | @element name text children rest span textSpan inside others _ _ freeInside freeFollowing =>
      simp only [Node.walkAll, elementNode, tagNode, Node.walk, List.forall_mem_append,
        List.forall_mem_cons]
      refine ⟨⟨rfl, fun node mem => ?_⟩, freeFollowing⟩
      rcases walkAll_lineNodes_append textSpan text inside node mem with mem | mem
      · cases text <;> simp_all [lineNodes, Node.isInheritance]
      · exact freeInside node mem
  | inclusion isRoot _ _ _ freeFollowing =>
      simp only [Node.walkAll, Node.walk, List.forall_mem_append, List.forall_mem_cons]
      exact ⟨⟨rfl, by simp⟩, freeFollowing⟩

section

variable {span textSpan : Span} {text : Option ElementText} {nodes linked : List Node}
  {state middle after : LinkState}

/-- The text on the line of an element is left as it is. -/
theorem includeAllFiles_lineNodes_eq (done : includeAllFiles nodes state = .ok linked after) :
    includeAllFiles (lineNodes span text ++ nodes) state =
      .ok (lineNodes span text ++ linked) after := by
  cases text with
  | none => exact done
  | some content =>
      have leaf : includeFiles (.leaf span (.text content.value false)) state =
          .ok [.leaf span (.text content.value false)] state := by
        rw [includeFiles]
        rfl
      rw [lineNodes, List.cons_append, includeAllFiles]
      exact (bind_of_ok leaf).trans (bind_of_ok done)

theorem includeFiles_elementNode_eq {name : String}
    (done : includeAllFiles nodes state = .ok linked after) :
    includeFiles (elementNode name span textSpan text nodes) state =
      .ok [elementNode name span textSpan text linked] after := by
  unfold elementNode tagNode includeFiles
  exact bind_of_ok (includeAllFiles_lineNodes_eq done)

theorem includeAllFiles_cons_eq {node : Node} {rest front : List Node}
    (first : includeFiles node state = .ok front middle)
    (others : includeAllFiles rest middle = .ok linked after) :
    includeAllFiles (node :: rest) state = .ok (front ++ linked) after := by
  rw [includeAllFiles]
  exact (bind_of_ok first).trans (bind_of_ok others)

/-- An include without a block is replaced by the linked nodes of its file. -/
theorem exists_includeFiles_eq_of_inclusion {reference : Reference} {body root : Span}
    (isRoot : reference.root = some root)
    (free : ∀ node ∈ Node.walkAll nodes, node.isInheritance = false)
    (done : includeAllFiles nodes state = .ok linked middle) :
    ∃ after, includeFiles (.file span (.inclusion body) reference nodes []) state =
      .ok linked after := by
  have noBlock : includeAllFiles [] state = .ok [] state := by
    rw [includeAllFiles]
    rfl
  refine ⟨{ middle with includes := middle.includes + 1 }, ?_⟩
  unfold includeFiles
  refine (bind_of_ok noBlock).trans ?_
  rw [isRoot]
  exact bind_of_ok (linkNodes_eq_of_includeAllFiles_eq free done)

end

/-- Loaded entries are linked into the elements that they stand for. -/
theorem Entry.Loaded.exists_includeAllFiles_eq {entries : List Entry} {nodes : List Node}
    (loaded : Loaded entries nodes) (state : LinkState) :
    ∃ linked after, includeAllFiles nodes state = .ok linked after ∧
      Stands (expandAll entries) linked := by
  induction loaded generalizing state with
  | nil => exact ⟨[], state, by rw [includeAllFiles]; rfl, .nil⟩
  | element _ _ linksInside linksFollowing =>
      rcases linksInside state with ⟨inside, middle, done, standsInside⟩
      rcases linksFollowing middle with ⟨others, last, rest, standsFollowing⟩
      exact ⟨_, last, includeAllFiles_cons_eq (includeFiles_elementNode_eq done) rest,
        .cons standsInside standsFollowing⟩
  | inclusion isRoot loadedInside _ linksInside linksFollowing =>
      rcases linksInside state with ⟨inside, between, inner, standsInside⟩
      rcases exists_includeFiles_eq_of_inclusion isRoot loadedInside.isInheritance_eq_false inner
        with ⟨middle, done⟩
      rcases linksFollowing middle with ⟨others, last, rest, standsFollowing⟩
      exact ⟨_, last, includeAllFiles_cons_eq done rest, standsInside.append standsFollowing⟩

/-- A document of loaded entries is linked into one of the elements that they stand for. -/
theorem Entry.Loaded.exists_link_eq {entries : List Entry} {document : Document}
    (loaded : Loaded entries document.nodes) (events : Array Event) :
    ∃ linked eventsAfter, link document events = .ok linked eventsAfter ∧
      Stands (expandAll entries) linked.nodes := by
  rcases loaded.exists_includeAllFiles_eq { events := events } with ⟨nodes, after, included, stands⟩
  have whole : dissolveAllBlocks nodes = nodes :=
    dissolveAllBlocks_eq Shape.blockless_finished stands.finished
  have linked : linkDocument document { events := events } = .ok ⟨document.span, nodes⟩ after := by
    refine (bind_of_ok (linkNodes_eq_of_includeAllFiles_eq loaded.isInheritance_eq_false
      included)).trans ?_
    simp only [whole]
    rfl
  exact ⟨⟨document.span, nodes⟩, _, by simp only [link, linked]; rfl, stands⟩

/-! ### The page -/

/-- A source in which entries are laid out becomes a page of the elements that they stand for, when
the files of its includes are available. -/
theorem outcome_renderText_of_available (options : PageOptions) (read : Reader)
    (file : Option String) (events : Array Event) {unit : IndentUnit} {entries : List Entry}
    {lines : List (List Char)} {source : String} (layout : Entry.Layout unit 0 entries lines)
    (written : WrittenIn source lines)
    (available : Entry.Available (options.loading read) options.maxIncludeDepth file entries) :
    outcome (renderText options read file source events) =
      .ok (Html.doctype ++ Element.htmlAll (Entry.expandAll entries)) := by
  rcases exists_ofSource_eq_of_entries file events layout written
    with ⟨document, parsedEvents, ofSource, parsed⟩
  rcases available.exists_loadNodes_eq rfl parsed (some source) { events := parsedEvents }
    with ⟨nodes, loadState, loadedNodes, isLoaded⟩
  let loadedDocument : Document := { document with nodes := nodes }
  have loaded : load document ⟨file, some source⟩ (options.loading read) parsedEvents =
      .ok loadedDocument (loadState.events.push (.loaded loadState.files file)) := by
    have same : (options.loading read).maxDepth = options.maxIncludeDepth := rfl
    simp only [load, same, loadedNodes]
    rfl
  have isLoadedDocument : Entry.Loaded entries loadedDocument.nodes := isLoaded
  rcases isLoadedDocument.exists_link_eq (loadState.events.push (.loaded loadState.files file))
    with ⟨linkedDocument, linkedEvents, linked, stands⟩
  have compiled : compileWithSources options read file source events =
      .ok (linkedDocument, Sources.ofDocument file source loadedDocument) linkedEvents :=
    (bind_of_ok ofSource).trans ((bind_of_ok loaded).trans
      ((bind_of_ok (adaptExcept_of_ok linked)).trans rfl))
  exact outcome_renderText_of_compiled options read file events compiled stands.finished
    (exists_render_eq stands options.rendering)

end Offside
