import Offside.Page
import Offside.Proofs.Contract.Pipeline
import Offside.Proofs.Renumbering.Filtering
import Offside.Proofs.Renumbering.Linking
import Offside.Proofs.Renumbering.Loading
import Offside.Proofs.Renumbering.Rendering

/-!
# Two templates with the same tokens

The page of a template is told by its tokens, and their line numbers do not matter. So two templates
whose tokens differ only in line numbers have the same page, or fail for the same reason.
-/

namespace Offside

open Computing

/-! ### Failures -/

/-- How two texts that failures come with may be related, for those that could not be cut into
tokens and for later ones. -/
abbrev TextRelation := (isToken : Bool) → Option String → Option String → Prop

namespace Failure

variable {line : Nat → Nat} {texts : TextRelation}

/-- The failure with another line number, and without a text. -/
def bare (line : Nat → Nat) (failure : Failure) : Failure :=
  failure.renumber ⟨line, none, none⟩

/-- Two failures that differ at most in the line number and in the text that they come with. -/
structure Alike (line : Nat → Nat) (texts : TextRelation) (failure other : Failure) : Prop where
  bare : other.bare line = failure.bare line
  texts : texts failure.isToken failure.source other.source

theorem source_renumber (change : Renumbering) (failure : Failure) :
    (failure.renumber change).source = change.otherSource := by
  cases failure <;> rfl

theorem bare_renumber (idempotent : ∀ number, line (line number) = line number)
    (source otherSource : Option String) (failure : Failure) :
    (failure.renumber ⟨line, source, otherSource⟩).bare line = failure.bare line := by
  cases failure <;> simp [renumber, bare, Diagnostic.renumber, idempotent]

theorem isToken_of_bare {failure other : Failure} (same : other.bare line = failure.bare line) :
    other.isToken = failure.isToken := by
  have kept (failure : Failure) : (failure.bare line).isToken = failure.isToken := by
    cases failure <;> rfl
  rw [← kept, same, kept]

/-- Both failures are related to a third one, which comes with the text of the first. -/
theorem alike_of_renumbered {source other : Option String}
    (idempotent : ∀ number, line (line number) = line number)
    (same : ∀ isToken text, texts isToken text text) (differ : texts false source other)
    {failure middle failure' : Failure}
    (first : failure.Renumbered ⟨line, source, source⟩ middle)
    (second : failure'.Renumbered ⟨line, other, source⟩ middle) :
    failure.Alike line texts failure' := by
  have sameText : middle.source = failure.source := by
    cases first with
    | same => rfl
    | shown _ shown => rw [source_renumber, shown]
  have sameBare : middle.bare line = failure.bare line := by
    cases first with
    | same => rfl
    | shown => exact bare_renumber idempotent _ _ _
  cases second with
  | same =>
      refine ⟨sameBare, ?_⟩
      rw [sameText]
      exact same _ _
  | shown later shown =>
      have bothBare := (bare_renumber idempotent _ _ failure').symm.trans sameBare
      refine ⟨bothBare, ?_⟩
      rw [source_renumber] at sameText
      rw [← isToken_of_bare bothBare, later, ← sameText, shown]
      exact differ

end Failure

/-! ### Documents of templates -/

section

variable {line : Nat → Nat} {texts : TextRelation}
  (idempotent : ∀ number, line (line number) = line number)
  (same : ∀ isToken text, texts isToken text text)

include idempotent same

/-- Tokens that differ only in line numbers form documents that do, too. -/
theorem alike_parse (still : line 0 = 0) {tokens tokens' : List Token}
    (sameTokens : tokens'.map (Token.renumber line) = tokens.map (Token.renumber line))
    (file : Option String) {source source' : Option String} (differ : texts false source source') :
    Parallel (fun _ _ => True)
      (fun document document' => document'.renumber line = document.renumber line)
      (fun fault fault' => (Failure.parse fault).Alike line texts (.parse fault'))
      (parse tokens { file, source }) (parse tokens' { file, source := source' }) := by
  have left := renumbers_parse ⟨line, source, source⟩ still tokens file
  have right := renumbers_parse ⟨line, source', source⟩ still tokens' file
  rw [sameTokens] at right
  refine (Parallel.join id left right).mono (fun _ _ => id) ?_
  rintro fault fault' ⟨common, first, second⟩
  have left : (Failure.parse fault).Renumbered ⟨line, source, source⟩ (.parse common) :=
    first.same ▸ .shown rfl first.source
  have right : (Failure.parse fault').Renumbered ⟨line, source', source⟩ (.parse common) :=
    second.same ▸ .shown rfl second.source
  exact Failure.alike_of_renumbered idempotent same differ left right

/-- Documents that differ only in line numbers are loaded as such documents. -/
theorem alike_load {options : LoadOptions} (plain : options.extensions = {})
    {document document' : Document}
    (sameDocument : document'.renumber line = document.renumber line) (file : Option String)
    {source source' : Option String} (differ : texts false source source') :
    Parallel (fun _ _ => True)
      (fun loaded loaded' => loaded'.renumber line = loaded.renumber line)
      (Failure.Alike line texts) (load document ⟨file, source⟩ options)
      (load document' ⟨file, source'⟩ options) := by
  have left := renumbers_load ⟨line, source, source⟩ plain idempotent document file
  have right := renumbers_load ⟨line, source', source⟩ plain idempotent document' file
  rw [sameDocument] at right
  refine (Parallel.join (Document.renumber line) left right).mono (fun _ _ => id) ?_
  rintro failure failure' ⟨common, first, second⟩
  exact Failure.alike_of_renumbered idempotent same differ first second

end

/-! ### Sources -/

mutual

/-- Which templates become known does not depend on the text of the first one. -/
theorem Sources.exists_addNode (file : Option String) : ∀ (node : Node) (known : Sources),
    ∃ more, ∀ (line : Nat → Nat) (text : String),
      addNode ((file, text) :: known) (node.renumber line) = (file, text) :: more
  | .leaf .., known => ⟨known, fun _ _ => by simp [addNode]⟩
  | .branch _ _ children, known => by
      rcases exists_addNodes file children known with ⟨more, added⟩
      exact ⟨more, fun line text => by simp [addNode, added line text]⟩
  | .file _ use reference loaded children, known => by
      cases use with
      | raw filters => exact ⟨known, fun _ _ => by simp [FileUse.renumber, addNode]⟩
      | inclusion | inheritance =>
          rcases exists_addNodes file children known with ⟨passed, passes⟩
          rcases reference with ⟨start, written, _ | path, _ | contents, bytes, _ | root⟩
          case some.some.some =>
            have seen (text : String) : (find? ((file, text) :: known) (some path)).isSome =
                (find? ((file, "") :: known) (some path)).isSome := by
              simp only [find?, List.lookup_cons]
              split <;> rfl
            by_cases isKnown : (find? ((file, "") :: known) (some path)).isSome
            · refine ⟨passed, fun line text => ?_⟩
              simp [FileUse.renumber, Reference.renumber, addNode, seen, isKnown, passes]
            · rcases exists_addNodes file loaded (known ++ [(some path, contents)]) with
                ⟨inside, entered⟩
              rcases exists_addNodes file children inside with ⟨more, added⟩
              refine ⟨more, fun line text => ?_⟩
              simp [FileUse.renumber, Reference.renumber, addNode, seen, isKnown, entered, added]
          all_goals
            refine ⟨passed, fun line text => ?_⟩
            simp [FileUse.renumber, Reference.renumber, addNode, passes]

theorem Sources.exists_addNodes (file : Option String) : ∀ (nodes : List Node) (known : Sources),
    ∃ more, ∀ (line : Nat → Nat) (text : String),
      addNodes ((file, text) :: known) (Node.renumberAll line nodes) = (file, text) :: more
  | [], known => ⟨known, fun _ _ => by simp [addNodes]⟩
  | node :: rest, known => by
      rcases exists_addNode file node known with ⟨further, added⟩
      rcases exists_addNodes file rest further with ⟨more, addedAll⟩
      exact ⟨more, fun line text => by simp [addNodes, added line text, addedAll line text]⟩

end

/-- Documents that differ only in line numbers have the same sources, but for the first text. -/
theorem Sources.exists_ofDocument {line : Nat → Nat} {document document' : Document}
    (sameDocument : document'.renumber line = document.renumber line) (file : Option String)
    (source source' : String) : ∃ more, ofDocument file source document = (file, source) :: more ∧
      ofDocument file source' document' = (file, source') :: more := by
  rcases exists_addNodes file document.nodes [] with ⟨more, added⟩
  rcases exists_addNodes file document'.nodes [] with ⟨more', added'⟩
  have sameNodes : Node.renumberAll line document'.nodes = Node.renumberAll line document.nodes :=
    congrArg Document.nodes sameDocument
  have atStart := added id source
  have atStart' := added' id source'
  rw [Node.renumberAll_id] at atStart atStart'
  have sameMore : more' = more := by
    have first := added' line source'
    rw [sameNodes, added line source'] at first
    exact (List.cons.inj first).2.symm
  exact ⟨more, atStart, sameMore ▸ atStart'⟩

section

variable {line : Nat → Nat} {texts : TextRelation}
  (same : ∀ isToken text, texts isToken text text)

include same

/-- Failures that differ only in the line number are given texts. -/
theorem Failure.alike_attach {failure failure' : Failure}
    (sameFailure : failure'.bare line = failure.bare line)
    (sameText : failure'.source = failure.source) {text text' : String}
    (differ : texts failure.isToken (some text) (some text')) :
    (failure.attach text).Alike line texts (failure'.attach text') := by
  have bareAttach (text : String) (failure : Failure) :
      (failure.attach text).bare line = failure.bare line := by
    cases failure <;> rfl
  have sourceAttach (text : String) (failure : Failure) :
      (failure.attach text).source = (failure.source <|> some text) := by
    cases failure <;> rfl
  have tokenAttach : (failure.attach text).isToken = failure.isToken := by
    cases failure <;> rfl
  refine ⟨by rw [bareAttach, bareAttach, sameFailure], ?_⟩
  rw [sourceAttach, sourceAttach, sameText, tokenAttach]
  cases failure.source with
  | none => exact differ
  | some shown => exact same _ _

/-- With the sources of documents that differ only in line numbers, failures that do so, too, are
shown alike. -/
theorem Sources.alike_attach {document document' : Document}
    (sameDocument : document'.renumber line = document.renumber line) (file : Option String)
    {source source' : String} (differ : texts false (some source) (some source'))
    {failure failure' : Failure} (later : failure.isToken = false)
    (sameFailure : failure'.bare line = failure.bare line)
    (sameText : failure'.source = failure.source) :
    ((ofDocument file source document).attach failure).Alike line texts
      ((ofDocument file source' document').attach failure') := by
  have fileBare (failure : Failure) : (failure.bare line).span.file = failure.span.file := by
    cases failure <;> rfl
  have sameFile : failure'.span.file = failure.span.file := by
    rw [← fileBare, sameFailure, fileBare]
  rcases exists_ofDocument sameDocument file source source' with ⟨more, first, second⟩
  unfold attach
  rw [first, second, sameFile]
  simp only [find?, List.lookup_cons]
  cases failure.span.file == file with
  | true => exact Failure.alike_attach same sameFailure sameText (later ▸ differ)
  | false =>
      cases more.lookup failure.span.file with
      | none =>
          refine ⟨sameFailure, ?_⟩
          rw [sameText]
          exact same _ _
      | some text => exact Failure.alike_attach same sameFailure sameText (same _ _)

end

/-! ### Pages -/

section

variable {line : Nat → Nat} {texts : TextRelation} {options : PageOptions}
  {read : Reader} {file : Option String} {source source' : String}

/-- Two linked documents that differ only in line numbers, each with the sources that it was made
of. -/
def AlikeLinked (line : Nat → Nat) (file : Option String) (source source' : String)
    (linked linked' : Document × Sources) : Prop :=
  linked'.1.renumber line = linked.1.renumber line ∧
    ∃ loaded loaded' : Document, loaded'.renumber line = loaded.renumber line ∧
      linked.2 = Sources.ofDocument file source loaded ∧
      linked'.2 = Sources.ofDocument file source' loaded'

theorem Diagnostic.renumber_eq {κ : Type} {fault fault' common : Diagnostic κ}
    (first : common = { fault with span := fault.span.renumber line })
    (second : common = { fault' with span := fault'.span.renumber line }) :
    fault'.renumber ⟨line, none, none⟩ = fault.renumber ⟨line, none, none⟩ ∧
      fault'.source = fault.source := by
  have both := second.symm.trans first
  injection both with sameCause sameSpan sameText
  exact ⟨by rw [renumber, renumber, sameCause, sameSpan], sameText⟩

variable (idempotent : ∀ number, line (line number) = line number) (still : line 0 = 0)
  (same : ∀ isToken text, texts isToken text text)
  (differ : texts false (some source) (some source'))
  (tokenized : Parallel (fun _ _ => True)
    (fun tokens tokens' : Array Token =>
      tokens'.toList.map (Token.renumber line) = tokens.toList.map (Token.renumber line))
    (fun fault fault' => (Failure.token fault).Alike line texts (.token fault'))
    (tokenize source { file }) (tokenize source' { file }))

include idempotent still same differ tokenized

theorem alike_loadedDocument :
    Parallel (fun _ _ => True)
      (fun loaded loaded' => loaded'.renumber line = loaded.renumber line)
      (Failure.Alike line texts) (loadedDocument options read file source)
      (loadedDocument options read file source') := by
  refine .bind (.bind (.adaptExcept tokenized fun _ _ => id) fun tokens tokens' sameTokens => ?_)
    fun document document' sameDocument =>
      alike_load idempotent same rfl sameDocument file differ
  exact .adaptExcept (alike_parse idempotent same still sameTokens file differ) fun _ _ => id

theorem alike_compileWithSources :
    Parallel (fun _ _ => True) (AlikeLinked line file source source') (Failure.Alike line texts)
      (compileWithSources options read file source)
      (compileWithSources options read file source') := by
  rw [compileWithSources_eq, compileWithSources_eq]
  refine .bind (alike_loadedDocument idempotent still same differ tokenized)
    fun loaded loaded' sameLoaded => ?_
  have left := renumbers_link line loaded
  have right := renumbers_link line loaded'
  rw [sameLoaded] at right
  refine .bind (.adaptExcept (Parallel.join id left right) ?_)
    fun linked linked' sameLinked => .pure ⟨sameLinked, loaded, loaded', sameLoaded, rfl, rfl⟩
  rintro fault fault' ⟨common, first, second⟩
  rcases Diagnostic.renumber_eq first second with ⟨sameFault, sameText⟩
  exact Sources.alike_attach same sameLoaded file differ rfl (congrArg Failure.link sameFault)
    sameText

/-- Templates whose tokens differ only in line numbers have the same page, or fail for the same
reason. -/
theorem alike_renderText :
    Parallel (fun _ _ => True) (fun page page' => page' = page) (Failure.Alike line texts)
      (renderText options read file source) (renderText options read file source') := by
  apply Parallel.bind (alike_compileWithSources idempotent still same differ tokenized)
  rintro ⟨linked, sources⟩ ⟨linked', sources'⟩
    ⟨sameLinked, loaded, loaded', sameLoaded, rfl, rfl⟩
  have left := options.filters.renumbers_apply line linked
  have right := options.filters.renumbers_apply line linked'
  rw [sameLinked] at right
  refine .bind (.adaptExcept (Parallel.join id left right) ?_) fun filtered filtered' same' => ?_
  · rintro fault fault' ⟨common, first, second⟩
    rcases Diagnostic.renumber_eq first second with ⟨sameFault, sameText⟩
    exact Sources.alike_attach same sameLoaded file differ rfl (congrArg Failure.filter sameFault)
      sameText
  · have left := Html.renumbers_render line filtered options.rendering
    have right := Html.renumbers_render line filtered' options.rendering
    rw [same'] at right
    refine .adaptExcept (Parallel.join id left right) ?_
    rintro fault fault' ⟨common, first, second⟩
    rcases Diagnostic.renumber_eq first second with ⟨sameFault, sameText⟩
    exact Sources.alike_attach same sameLoaded file differ rfl (congrArg Failure.render sameFault)
      sameText

end

end Offside
