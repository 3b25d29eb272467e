import Offside.Proofs.Provenance.Grammar
import Offside.Proofs.Provenance.Places

/-!
# Where the spans of a document come from

The grammar takes the spans of a document from its tokens. After that no stage makes a span of its
own: linking and filtering keep each span for the same kind of thing that it was the place of.
-/

namespace Offside

open Computing

/-- What a span is the place of. -/
inductive Bearer where
  | node
  | body
  | attribute
  | filter
  | reference
deriving DecidableEq

/-- The spans of some attributes, as such. -/
def Attribute.bearings (attributes : List Attribute) : List (Bearer × Span) :=
  attributes.map fun entry => (.attribute, entry.span)

/-- The spans of the body and of the attributes of a node with a body, each with what it is of. -/
def Label.bearings (label : Label) : List (Bearer × Span) :=
  label.body?.toList.map (Prod.mk .body) ++ Attribute.bearings label.attributes

/-- The spans in what another file is used for, each with what it is of. -/
def FileUse.bearings : FileUse → List (Bearer × Span)
  | .inheritance => []
  | .inclusion body => [(.body, body)]
  | .raw filters =>
      filters.flatMap fun entry => (.filter, entry.span) :: Attribute.bearings entry.attributes

mutual

/-- The spans of a node and of the nodes in it, the loaded ones among them, each with what it is
of. -/
def Node.bearings : Node → List (Bearer × Span)
  | .leaf span content => (.node, span) :: Attribute.bearings content.attributes
  | .branch span label children => (.node, span) :: (label.bearings ++ Node.bearingsAll children)
  | .file span use reference loaded children =>
      (.node, span) :: (.reference, reference.span) ::
        (use.bearings ++ Node.bearingsAll loaded ++ Node.bearingsAll children)

/-- The spans of some nodes and of the nodes in them, each with what it is of. -/
def Node.bearingsAll : List Node → List (Bearer × Span)
  | [] => []
  | node :: rest => node.bearings ++ Node.bearingsAll rest

end

mutual

/-- The roots of the documents that are loaded in a node. -/
def Node.roots : Node → List Span
  | .leaf .. => []
  | .branch _ _ children => Node.rootsAll children
  | .file _ _ reference loaded children =>
      reference.root.toList ++ Node.rootsAll loaded ++ Node.rootsAll children

/-- The roots of the documents that are loaded in some nodes. -/
def Node.rootsAll : List Node → List Span
  | [] => []
  | node :: rest => node.roots ++ Node.rootsAll rest

end

/-- Each span of a document is one of another document or of what is loaded there, where it is the
place of the same kind of thing. -/
structure Document.DrawnFrom (document origin : Document) : Prop where
  root : document.span ∈ origin.span :: Node.rootsAll origin.nodes
  nodes : Node.bearingsAll document.nodes ⊆ Node.bearingsAll origin.nodes

/-! ### The spans of a document that was just read -/

theorem Attribute.map_bearings (attributes : List Attribute) :
    (bearings attributes).map Prod.snd = attributes.map (·.span) := by
  simp [bearings]

theorem Label.map_bearings (label : Label) : label.bearings.map Prod.snd = label.places := by
  simp [bearings, places, Attribute.map_bearings, Function.comp_def]

theorem FileUse.map_bearings (use : FileUse) : use.bearings.map Prod.snd = use.places := by
  cases use with
  | inheritance | inclusion => rfl
  | raw filters =>
      simp only [bearings, places, List.map_flatMap, List.map_cons, Attribute.map_bearings]
      rfl

mutual

theorem Node.map_bearings : ∀ node : Node, node.bearings.map Prod.snd = node.places
  | .leaf _ content => by
      simp [bearings, places, Attribute.map_bearings, Leaf.places]
  | .branch _ label children => by
      simp [bearings, places, label.map_bearings, map_bearingsAll children]
  | .file _ use _ loaded children => by
      simp [bearings, places, use.map_bearings, map_bearingsAll loaded, map_bearingsAll children]

theorem Node.map_bearingsAll : ∀ nodes : List Node,
    (bearingsAll nodes).map Prod.snd = placesAll nodes
  | [] => rfl
  | node :: rest => by
      simp [bearingsAll, placesAll, node.map_bearings, map_bearingsAll rest]

end

/-- The span of a token in a file, whose name takes the place of the token's. -/
def Token.placeIn (token : Token) (file : Option String) : Span :=
  { token.span with file := file <|> token.span.file }

/-- No tokens form an empty document, and otherwise its end is where the last of them is. -/
theorem placed_of_parse {tokens : List Token} {file source : Option String}
    {document : Document} {events : Array Event}
    (parsed : outcome (parse tokens { file, source } events) = .ok document) :
    Node.Every (Node.Placed fun span => ∃ token ∈ tokens, span = token.placeIn file)
      document.nodes := by
  cases ending : tokens.getLast? with
  | none =>
      have none : tokens = [] := List.getLast?_eq_none_iff.mp ending
      rw [none, parse_nil] at parsed
      cases parsed
      exact Node.every_nil
  | some last =>
      let site : Site := ⟨file, source, fun span => ∃ token ∈ tokens, span = token.placeIn file⟩
      have owned : ∀ token ∈ tokens, site.Owns token.span :=
        fun token found => ⟨token, found, rfl⟩
      have endOwned : site.Owns (TokenStream.endingOf tokens).span := by
        rw [TokenStream.endingOf, ending]
        exact owned last (List.mem_of_getLast? ending)
      exact ((placed_parse site owned endOwned).value parsed).2

/-! ### The spans in the later stages -/

namespace Node

variable {given : List (Bearer × Span)}

/-- The spans of a node are among given ones, where they are the places of the same. -/
def DrawnFrom (given : List (Bearer × Span)) (node : Node) : Prop :=
  node.bearings ⊆ given

theorem bearingsAll_subset {nodes : List Node} :
    bearingsAll nodes ⊆ given ↔ Every (DrawnFrom given) nodes := by
  induction nodes with
  | nil => simp [bearingsAll]
  | cons node rest ih => rw [bearingsAll, List.append_subset, ih, every_cons, DrawnFrom]

theorem drawnFrom_branch {span : Span} {label : Label} {children : List Node} :
    (branch span label children).DrawnFrom given ↔
      (.node, span) ∈ given ∧ label.bearings ⊆ given ∧ Every (DrawnFrom given) children := by
  rw [DrawnFrom, bearings, List.cons_subset, List.append_subset, bearingsAll_subset]

theorem drawnFrom_file {span : Span} {use : FileUse} {reference : Reference}
    {loaded children : List Node} :
    (file span use reference loaded children).DrawnFrom given ↔
      (.node, span) ∈ given ∧ (.reference, reference.span) ∈ given ∧ use.bearings ⊆ given ∧
        Every (DrawnFrom given) loaded ∧ Every (DrawnFrom given) children := by
  rw [DrawnFrom, bearings, List.cons_subset, List.cons_subset, List.append_subset,
    List.append_subset, bearingsAll_subset, bearingsAll_subset, and_assoc]

theorem DrawnFrom.text {node : Node} (drawn : node.DrawnFrom given) (value : String) :
    (leaf node.span (.text value false)).DrawnFrom given := by
  have own : (.node, node.span) ∈ node.bearings := by
    cases node <;> simp [bearings, span]
  simpa [DrawnFrom, bearings, Leaf.attributes, Attribute.bearings] using drawn own

instance : Hereditary (DrawnFrom given) where
  children := by
    intro node drawn
    cases node with
    | leaf => exact every_nil
    | branch => exact (drawnFrom_branch.mp drawn).2.2
    | file _ use =>
        cases use with
        | inclusion => exact (drawnFrom_file.mp drawn).2.2.2.2
        | raw | inheritance => exact every_nil

instance : Movable (DrawnFrom given) where
  branch drawn filled := by
    rw [drawnFrom_branch] at drawn ⊢
    exact ⟨drawn.1, drawn.2.1, filled drawn.2.2⟩
  inclusion drawn filled := by
    rw [drawnFrom_file] at drawn ⊢
    exact ⟨drawn.1, drawn.2.1, drawn.2.2.1, drawn.2.2.2.1, filled drawn.2.2.2.2⟩
  block drawn := (drawnFrom_branch.mp drawn).2.2
  namedBlock drawn := (drawnFrom_branch.mp drawn).2.2

theorem joins_drawnFrom : Joins (DrawnFrom given) (DrawnFrom given) fun _ => True where
  leaf := id
  branch drawn filled := by
    rw [drawnFrom_branch] at drawn ⊢
    exact ⟨drawn.1, drawn.2.1, filled⟩
  template drawn _ := (drawnFrom_file.mp drawn).2.2.2.1
  unloaded _ _ _ := trivial
  text drawn := drawn.text _
  unread _ _ := trivial
  filtered drawn _ := drawn
  blames _ _ _ _ := trivial
  blamesLinked _ _ _ _ := trivial

theorem filters_drawnFrom : Filters (DrawnFrom given) (DrawnFrom given) fun _ => True where
  leaf := id
  branch drawn _ filtered := by
    rw [drawnFrom_branch] at drawn ⊢
    exact ⟨drawn.1, drawn.2.1, filtered⟩
  inclusion drawn filtered := by
    rw [drawnFrom_file] at drawn ⊢
    exact ⟨drawn.1, drawn.2.1, drawn.2.2.1, drawn.2.2.2.1, filtered⟩
  inheritance := id
  unfiltered := id
  text drawn := drawn.text _
  blames _ _ := trivial
  blamesEntry _ _ _ := trivial
  unread _ _ _ := trivial

end Node

/-- A linked document has the root of the template, or that of its furthest ancestor. -/
theorem satisfies_linkNodes_root (root : Span) : ∀ {nodes : List Node},
    Satisfies (linkNodes root nodes)
      (fun linked => linked.document.span ∈ root :: Node.rootsAll nodes) fun _ => True
  | [] => by
      unfold linkNodes
      exact .pure (by simp)
  | node :: rest => by
      unfold linkNodes
      split
      · contradiction
      · cases ‹_ :: _ = _›
        rename_i span reference loaded children
        apply Satisfies.bind (.trivial _)
        intro _ _
        apply Satisfies.bind (.trivial _)
        intro nodes _
        apply Satisfies.bind (.trivial _)
        intro items _
        split
        · exact .throw trivial
        · rename_i ancestorRoot known
          apply Satisfies.bind (.modify _)
          intro _ _
          apply Satisfies.bind (satisfies_linkNodes_root ancestorRoot)
          intro ancestor among
          have passed : ancestor.document.span ∈ root ::
              Node.rootsAll (.file span .inheritance reference loaded children :: rest) := by
            simp only [Node.rootsAll, Node.roots, known, Option.toList_some, List.mem_cons,
              List.mem_append, List.not_mem_nil, or_false] at among ⊢
            exact .inr (.inl (.inl among))
          have keeps : Satisfies (inheritFrom items ancestor.document)
              (fun document => document.span = ancestor.document.span) fun _ => True := by
            unfold inheritFrom
            dsimp only
            split
            · exact .throw trivial
            · exact .bind (.trivial _) fun _ _ => .pure rfl
          exact .bind keeps fun document same => .pure (by rwa [same])
      · cases ‹_ :: _ = _›
        exact .bind (.trivial _) fun _ _ => .bind (.trivial _) fun _ _ =>
          .bind (.trivial _) fun _ _ => .pure (by simp)

theorem drawnFrom_of_link {document linked : Document} {events : Array Event}
    (done : outcome (link document events) = .ok linked) : linked.DrawnFrom document := by
  have root : Satisfies (link document)
      (fun linked => linked.span ∈ document.span :: Node.rootsAll document.nodes)
      fun _ => True := by
    have before : Satisfies (linkDocument document)
        (fun linked => linked.span ∈ document.span :: Node.rootsAll document.nodes)
        fun _ => True :=
      .bind (satisfies_linkNodes_root document.span) fun linked among => .pure among
    intro events
    have done := before { events := events }
    dsimp only [link]
    revert done
    cases linkDocument document { events := events } <;> exact id
  have nodes := Node.joins_drawnFrom.satisfies_link Node.Movable.dissolves
    (Node.bearingsAll_subset.mp (List.Subset.refl (Node.bearingsAll document.nodes)))
  exact ⟨root.value done, Node.bearingsAll_subset.mpr (nodes.value done)⟩

theorem drawnFrom_of_apply {set : FilterSet} {origin document filtered : Document}
    {events : Array Event} (drawn : document.DrawnFrom origin)
    (done : outcome (set.apply document events) = .ok filtered) : filtered.DrawnFrom origin := by
  have root : filtered.span = document.span := by
    unfold FilterSet.apply at done
    split at done <;> cases done
    rfl
  have nodes := Node.filters_drawnFrom.satisfies_apply set (Node.bearingsAll_subset.mp drawn.nodes)
  exact ⟨root ▸ drawn.root, Node.bearingsAll_subset.mpr (nodes.value done)⟩

/-- Every span of a document that was read is that of a token. Every span of a linked document, and
of what filtering makes of it, was there before for the same kind of thing. -/
theorem stages_keep_spans (file source : Option String) (set : FilterSet) (events : Array Event) :
    (∀ tokens document, outcome (parse tokens { file, source } events) = .ok document →
      ∀ span ∈ Node.placesAll document.nodes, ∃ token ∈ tokens, span = token.placeIn file) ∧
    ∀ document linked, outcome (link document events) = .ok linked →
      linked.DrawnFrom document ∧
        ∀ filtered, outcome (set.apply linked events) = .ok filtered →
          filtered.DrawnFrom document := by
  refine ⟨fun tokens document parsed => ?_, fun document linked done => ?_⟩
  · exact Node.forall_mem_placesAll.mpr (placed_of_parse parsed)
  · have drawn := drawnFrom_of_link done
    exact ⟨drawn, fun filtered applied => drawnFrom_of_apply drawn applied⟩

/-- The tokens of a call with an attribute, in a template without a name. -/
def callTokens : List Token :=
  [⟨.call "note" none, ⟨some "old.pg", 2, 1⟩, ⟨2, 6⟩⟩,
    ⟨.startAttributes, ⟨some "old.pg", 2, 6⟩, ⟨2, 7⟩⟩,
    ⟨.attributeEntry "kind" (.text "short"), ⟨some "old.pg", 2, 7⟩, ⟨2, 19⟩⟩,
    ⟨.endAttributes, ⟨some "old.pg", 2, 19⟩, ⟨2, 20⟩⟩,
    ⟨.eos, ⟨some "old.pg", 2, 20⟩, ⟨2, 20⟩⟩]

/-- A template that fills the slot of its base with text, which goes through a filter. -/
def slotDocument : Document where
  span := ⟨some "page.pg", 0, 0⟩
  nodes := [
    .file ⟨some "page.pg", 1, 1⟩ .inheritance
      { span := ⟨some "page.pg", 1, 9⟩, path := "base", root := some ⟨some "base.pg", 0, 0⟩ }
      [.branch ⟨some "base.pg", 1, 1⟩ (.namedBlock "slot" .replace) []] [],
    .branch ⟨some "page.pg", 2, 1⟩ (.namedBlock "slot" .replace)
      [.branch ⟨some "page.pg", 3, 3⟩ (.filter "loud" [] ⟨some "page.pg", 3, 9⟩)
        [.leaf ⟨some "page.pg", 3, 9⟩ (.text "hey" false)]]]

/-- The template and its base in one document. -/
def slotPage : Document where
  span := ⟨some "base.pg", 0, 0⟩
  nodes := [
    .branch ⟨some "page.pg", 3, 3⟩ (.filter "loud" [] ⟨some "page.pg", 3, 9⟩)
      [.leaf ⟨some "page.pg", 3, 9⟩ (.text "hey" false)]]

/-- A filter that adds an exclamation mark. -/
def loudFilters : FilterSet where
  filters := [("loud", .text fun text _ => .ok (text ++ "!"))]

theorem stages_keep_spans_slot :
    (∃ document, outcome (parse callTokens { file := some "new.pg", source := none } #[]) =
        .ok document ∧ Node.placesAll document.nodes =
          [⟨some "new.pg", 2, 1⟩, ⟨some "new.pg", 2, 7⟩] ∧
      ∀ span ∈ Node.placesAll document.nodes,
        ∃ token ∈ callTokens, span = token.placeIn (some "new.pg")) ∧
    ∃ filtered, outcome (loudFilters.apply slotPage #[]) = .ok filtered ∧
      Node.bearingsAll filtered.nodes = [(.node, ⟨some "page.pg", 3, 3⟩)] ∧
      outcome (link slotDocument #[]) = .ok slotPage ∧ slotPage.DrawnFrom slotDocument ∧
      filtered.DrawnFrom slotDocument := by
  rcases stages_keep_spans (some "new.pg") none loudFilters #[] with ⟨ofParse, ofLink⟩
  have parsed : outcome (parse callTokens { file := some "new.pg", source := none } #[]) =
    .ok _ := rfl
  have linked : outcome (link slotDocument #[]) = .ok slotPage := rfl
  have filtered : outcome (loudFilters.apply slotPage #[]) = .ok _ := rfl
  rcases ofLink _ _ linked with ⟨drawn, further⟩
  exact ⟨⟨_, parsed, rfl, ofParse _ _ parsed⟩, _, filtered, rfl, linked, drawn,
    further _ filtered⟩

end Offside
