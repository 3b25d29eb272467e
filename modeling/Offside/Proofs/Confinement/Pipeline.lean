import Offside.Proofs.Confinement.Linking
import Offside.Proofs.Confinement.Rendering
import Offside.Proofs.Contract.Finished
import Offside.Proofs.Contract.Pipeline
import Offside.Proofs.Inheritance.Template

/-!
# The static check for the block of a call

The grammar refuses a place for the block of a call outside the declarations of mixins. Rendering
fails without a call under way if it comes to such a place. Between the two stands linking: if it
takes no such place out of a declaration, then no page fails for want of a call.
-/

namespace Offside

open Computing

namespace FilterSet

variable (set : FilterSet)

mutual

theorem confined_applyToNode : ∀ {node : Node}, node.Confined →
    Satisfies (set.applyToNode node) Node.Confined fun _ => True
  | .leaf .., confined => by
      unfold applyToNode
      exact .pure confined
  | .branch span label children, confined => by
      have inside : Satisfies (set.applyToNodes children)
          (fun filtered => Node.ConfinedAll children → Node.ConfinedAll filtered) fun _ => True :=
        .of_imp confined_applyToNodes
      unfold applyToNode
      apply Satisfies.bind inside
      intro filtered filteredConfined
      split
      · exact .bind (.trivial _) fun _ _ => .bind (.trivial _) fun _ _ =>
          .pure (by simp [Node.Confined])
      · exact .pure (confined.imp_right filteredConfined)
  | .file span use reference loaded children, confined => by
      unfold applyToNode
      split
      · exact .bind (confined_applyToNodes confined.2) fun _ filtered =>
          .pure ⟨confined.1, filtered⟩
      · split
        · exact .pure confined
        · exact .bind (.trivial _) fun _ _ => .bind (.trivial _) fun _ _ =>
            .bind (.trivial _) fun _ _ => .pure (by simp [Node.Confined])
      · exact .pure confined

theorem confined_applyToNodes : ∀ {nodes : List Node}, Node.ConfinedAll nodes →
    Satisfies (set.applyToNodes nodes) Node.ConfinedAll fun _ => True
  | [], _ => by
      unfold applyToNodes
      exact .pure trivial
  | _ :: _, confined => by
      unfold applyToNodes
      exact .bind (confined_applyToNode confined.1) fun _ first =>
        .bind (confined_applyToNodes confined.2) fun _ others => .pure ⟨first, others⟩

end

/-- Filtering keeps a document confined: what it makes is text. -/
theorem confinedAll_apply {document : Document} (confined : Node.ConfinedAll document.nodes) :
    Satisfies (set.apply document) (fun filtered => Node.ConfinedAll filtered.nodes)
      fun _ => True := by
  intro events
  have done := set.confined_applyToNodes confined { events := events }
  dsimp only [apply]
  revert done
  cases set.applyToNodes document.nodes { events := events } <;> exact id

end FilterSet

/-! ### Documents that are sealed -/

theorem Document.not_refers {document template : Document}
    (whole : Node.HaveAll .whole document.nodes) : ¬document.Refers template := by
  rintro (⟨found, -⟩ | ⟨found, -⟩) <;>
    exact file_not_mem_walkAll Shape.fileless_whole whole _ _ _ _ _ found

/-- A template whose nodes and whose ancestor refer to no other files is sealed if its nodes are. -/
theorem Descendant.sealed_document (template : Descendant)
    (nodes : Node.HaveAll .whole template.nodes) (isSealed : Node.SealedAll false template.nodes)
    (ancestor : Node.HaveAll .whole template.loaded) : template.document.Sealed := by
  intro descendant reaches
  rcases reaches.cases_head with same | ⟨middle, refers, reaches⟩
  · -- It is the template itself.
    rcases template with ⟨root, span, reference, loaded, children, own⟩
    cases descendant
    cases same
    intro state
    simpa only [includeAllFiles_eq Shape.fileless_whole.filtered nodes state] using isSealed
  · -- The ancestor extends nothing.
    have middleWhole : Node.HaveAll .whole middle.nodes := by
      rcases refers with ⟨found, -⟩ | ⟨found, -⟩ <;>
        rcases List.mem_cons.mp found with same | found
      · cases same
        exact ancestor
      · exact absurd found (file_not_mem_walkAll Shape.fileless_whole nodes _ _ _ _ _)
      · cases same
      · exact absurd found (file_not_mem_walkAll Shape.fileless_whole nodes _ _ _ _ _)
    rcases reaches.cases_head with same | ⟨_, refers, -⟩
    · cases same
      exact absurd middleWhole.1 Shape.fileless_whole.not_has_file
    · exact absurd refers (Document.not_refers middleWhole)

/-! ### From a source to its page -/

section

variable {options : PageOptions} {read : Reader} {file : Option String} {source : String}

theorem confined_loadedDocument :
    Satisfies (loadedDocument options read file source)
      (fun loaded => Node.ConfinedAll loaded.nodes) fun _ => True :=
  .bind (confinedAll_ofSource file source) fun _ confined => confinedAll_load rfl confined _

theorem ensures_finishedDocument {events : Array Event}
    (isSealed : ∀ loaded after, loadedDocument options read file source events = .ok loaded after →
      loaded.Sealed) :
    Ensures (finishedDocument options read file source) events fun finished _ =>
      Node.ConfinedAll finished.nodes := by
  have loads : Ensures (loadedDocument options read file source) events fun loaded _ =>
      loaded.Sealed ∧ Node.ConfinedAll loaded.nodes :=
    fun loaded after done =>
      ⟨isSealed loaded after done, confined_loadedDocument.ensures events loaded after done⟩
  have filters (linked : Document × Sources) (confined : Node.ConfinedAll linked.1.nodes) :
      Satisfies ((options.filters.apply linked.1).adaptExcept fun fault =>
        linked.2.attach (.filter fault)) (fun finished => Node.ConfinedAll finished.nodes)
        fun _ => True :=
    .adaptExcept (options.filters.confinedAll_apply confined) fun _ _ => trivial
  unfold finishedDocument
  rw [compileWithSources_eq]
  refine .bind (.bind loads fun loaded middle ready => ?_) fun linked middle confined =>
    (filters linked confined).ensures middle
  have links : Satisfies ((link loaded).adaptExcept fun fault =>
      (Sources.ofDocument file source loaded).attach (.link fault))
      (fun linked => Node.ConfinedAll linked.nodes) fun _ => True :=
    .adaptExcept (confinedAll_link ready.2 ready.1) fun _ _ => trivial
  exact .bind (links.ensures middle) fun linked _ confined => .pure confined

end

/-- The grammar refuses every place for the block of a call that is not in the declaration of a
mixin. If all overrides of the loaded templates keep such places in declarations, too, then no
rendering fails for want of a call, whatever is included, extended, yielded and called. -/
theorem block_of_call_checked :
    (∀ tokens file source, Satisfies (parse tokens { file, source })
      (fun document => Node.ConfinedAll document.nodes) fun _ => True) ∧
    (∀ hooks layer budget (stream : TokenStream), stream.next.kind = .mixinBlock →
      Grammar.expressionRule hooks layer false budget stream =
        .error (.fault (stream.fault stream.next.span .blockOutsideMixin))
          { stream with pending := stream.pending.tail }) ∧
    ∀ options read file source events,
      (∀ loaded after, loadedDocument options read file source events = .ok loaded after →
        loaded.Sealed) →
      ∀ finished after, finishedDocument options read file source events = .ok finished after →
        Satisfies (Html.render finished options.rendering) (fun _ => True)
          fun fault => fault.cause ≠ .callStackUnderflow := by
  refine ⟨confinedAll_parse, expressionRule_mixinBlock, ?_⟩
  intro options read file source events isSealed finished after done
  exact Html.satisfies_render_confined (ensures_finishedDocument isSealed finished after done) _

/-- Files in a list, by path. -/
def listed (files : List (String × String)) : Reader := fun path =>
  match files.lookup path with
  | some contents => .ok contents.toUTF8.data.toList
  | none => .error "no such file"

/-- A page with a mixin, in which the block of a call stands beside a named block. -/
def notePage : String :=
  "extends base.pg\nmixin note\n  block title\n    h1 Note\n  block\n" ++
    "block content\n  +note\n    b hi"

/-- A page with a mixin, in which the block of a call stands inside a named block. -/
def leakyPage : String :=
  "extends base.pg\nmixin note\n  block content\n    block"

/-- A base with a block for the content. -/
def noteBase : Reader :=
  listed [("base.pg", "main\n  block content")]

instance : DecidablePred Shape.whole.branch := fun _ => isTrue trivial

instance (filters : List IncludeFilter) (reference : Reference) :
    Decidable (Shape.whole.raw filters reference) := isFalse id

/-- Whether a document extends another one and is sealed for a reason that can be computed. -/
def Document.extendsSealed (document : Document) : Bool :=
  match document.nodes with
  | .file _ .inheritance _ loaded _ :: nodes =>
      decide (Node.HaveAll .whole nodes ∧ Node.SealedAll false nodes ∧ Node.HaveAll .whole loaded)
  | _ => false

theorem Document.sealed_of_extendsSealed {document : Document}
    (isSealed : document.extendsSealed = true) : document.Sealed := by
  rcases document with ⟨root, nodes⟩
  unfold extendsSealed at isSealed
  split at isSealed
  · rename_i span reference loaded children own same
    cases same
    rcases of_decide_eq_true isSealed with ⟨whole, ownSealed, ancestor⟩
    exact Descendant.sealed_document ⟨root, span, reference, loaded, children, own⟩ whole ownSealed
      ancestor
  · cases isSealed

theorem block_of_call_checked_note :
    (∀ loaded after, loadedDocument {} noteBase (some "page.pg") notePage #[] = .ok loaded after →
      loaded.Sealed) ∧
    (∃ finished after,
      finishedDocument {} noteBase (some "page.pg") notePage #[] = .ok finished after ∧
        Satisfies (Html.render finished {}) (fun _ => True)
          fun fault => fault.cause ≠ .callStackUnderflow) ∧
    let stream := TokenStream.ofTokens none none [⟨.mixinBlock, ⟨none, 1, 1⟩, ⟨1, 6⟩⟩]
    stream.next.kind = .mixinBlock ∧
      Grammar.expressionRule Hooks.none (grammar Hooks.none 8) false 8 stream =
        .error (.fault (stream.fault stream.next.span .blockOutsideMixin))
          { stream with pending := [] } := by
  have check : (outcome (loadedDocument {} noteBase (some "page.pg") notePage #[])).toOption.any
      Document.extendsSealed = true := by
    decide +kernel
  have isSealed (loaded : Document) (after : Array Event)
      (done : loadedDocument {} noteBase (some "page.pg") notePage #[] = .ok loaded after) :
      loaded.Sealed :=
    Document.sealed_of_extendsSealed (by simpa [done, outcome, Except.toOption] using check)
  refine ⟨isSealed, ?_, rfl, block_of_call_checked.2.1 _ _ _ _ rfl⟩
  have finishes : (outcome (finishedDocument {} noteBase (some "page.pg") notePage #[])).isOk =
      true := by
    decide +kernel
  cases done : finishedDocument {} noteBase (some "page.pg") notePage #[] with
  | ok finished after =>
      exact ⟨finished, after, rfl,
        block_of_call_checked.2.2 {} noteBase _ _ _ isSealed finished after done⟩
  | error failure after => simp [done, outcome, Except.isOk, Except.toBool] at finishes

/-- Whether rendering a document fails for want of a call. -/
def Document.lacksCall (document : Document) : Bool :=
  match outcome (Html.render document {} #[]) with
  | .ok _ => false
  | .error fault => decide (fault.cause = .callStackUnderflow)

/-- An override may take the place for the block of a call out of a mixin, and then a page fails
when it comes to it. -/
theorem exists_callStackUnderflow :
    ∃ finished after, finishedDocument {} noteBase (some "page.pg") leakyPage #[] =
        .ok finished after ∧
      ∃ fault, outcome (Html.render finished {} #[]) = .error fault ∧
        fault.cause = .callStackUnderflow := by
  have check : (outcome (finishedDocument {} noteBase (some "page.pg") leakyPage #[])).toOption.any
      Document.lacksCall = true := by
    decide +kernel
  cases done : finishedDocument {} noteBase (some "page.pg") leakyPage #[] with
  | error failure after => simp [done, outcome, Except.toOption] at check
  | ok finished after =>
      have lacks : finished.lacksCall = true := by
        simpa [done, outcome, Except.toOption] using check
      unfold Document.lacksCall at lacks
      split at lacks
      · cases lacks
      · rename_i fault failed
        exact ⟨finished, after, rfl, fault, failed, of_decide_eq_true lacks⟩

end Offside
