import Offside.Document.Source
import Offside.Proofs.Attributes.Names
import Offside.Proofs.Computation
import Offside.Proofs.Contract.Stage

/-!
# What the grammar makes of the nodes that it reads

Each rule of the grammar puts nodes together that other rules have read, and gives no tag two
attributes of one name, but classes. So a property of nodes holds of all documents if it passes from
the parts to what is made of them. Inside the declaration of a mixin it may be another property than
outside.
-/

namespace Offside

open Computing Parsing Node

/-! ### Properties that pass to what is made of the parts -/

namespace Node

/-- A property that passes from the parts to what the grammar makes of them, for all nodes but
those that depend on whether they are inside the declaration of a mixin. -/
class Composed (holds : Node → Prop) : Prop where
  leaf : ∀ {span content}, content ≠ .mixinBlock → content.Distinct → holds (.leaf span content)
  branch : ∀ {span label children}, label.Distinct → Every holds children →
    holds (.branch span label children)
  file : ∀ {span use reference children}, reference.Open → Every holds children →
    holds (.file span use reference [] children)
  /-- A block without a name may be dissolved into its nodes. -/
  dissolve : ∀ {span children}, holds (.branch span .block children) → Every holds children

/-- A property inside the declarations of mixins and one outside, each passing from the parts to
what is made of them. -/
class ComposedIn (holds : (inMixin : Bool) → Node → Prop) : Prop where
  composed : ∀ inMixin, Composed (holds inMixin)
  mixinBlock : ∀ {span}, holds true (.leaf span .mixinBlock)
  declaration : ∀ {inMixin span name arguments body children}, Every (holds true) children →
    holds inMixin (.branch span (.mixin ⟨name, arguments, false, []⟩ body) children)

instance (holds : Bool → Node → Prop) [family : ComposedIn holds] (inMixin : Bool) :
    Composed (holds inMixin) :=
  family.composed inMixin

end Node

/-- Every result of the computation has a property; nothing is said about its faults. -/
def Parsing.Yields {α : Type} (action : Parsing α) (holds : α → Prop) : Prop :=
  Satisfies action holds fun _ => True

namespace Parsing.Yields

variable {α β : Type} {action : Parsing α} {next : α → Parsing β} {first : α → Prop}
  {holds : β → Prop}

theorem pure {value : β} (given : holds value) : Yields (pure value) holds :=
  Satisfies.pure given

theorem throw {stop : ParseStop} : Yields (throw stop) holds :=
  Satisfies.throw trivial

theorem fail {span : Span} {cause : ParseFault} : Yields (Parsing.fail span cause) holds :=
  Satisfies.get_bind fun _ => Satisfies.throw trivial

theorem bind (before : Yields action first) (after : ∀ value, first value →
    Yields (next value) holds) : Yields (action >>= next) holds :=
  Satisfies.bind before after

/-- Nothing comes after a fault. -/
theorem fail_bind {span : Span} {cause : ParseFault} :
    Yields (Parsing.fail span cause >>= next) holds := by
  have never : Yields (Parsing.fail span cause : Parsing α) fun _ => False := .fail
  exact never.bind fun _ none => none.elim

/-- Where the first result does not matter. -/
theorem after (each : ∀ value, Yields (next value) holds) : Yields (action >>= next) holds :=
  Satisfies.bind (Satisfies.trivial action) fun value _ => each value

theorem pure_bind {value : α} (given : Yields (next value) holds) :
    Yields (Pure.pure value >>= next) holds :=
  fun state => given state

end Parsing.Yields

/-- The tag that is being put together has distinct attributes, and nodes with a property. -/
structure TagParts.Sound (holds : Node → Prop) (parts : TagParts) : Prop where
  nodes : Every holds parts.body.nodes
  distinct : Attribute.Distinct parts.attributes

namespace Grammar

/-- A grammar whose expressions, blocks and text blocks have a property. -/
structure YieldsNodes (grammar : Grammar) (holds : Node → Prop) : Prop where
  expression : Yields grammar.expression holds
  block : Yields grammar.block fun block => Every holds block.nodes
  textBlock : Yields grammar.textBlock fun block => ∀ found ∈ block, Every holds found.nodes

/-- Without hooks nothing is done about a token that the grammar does not know. -/
theorem yields_ask_bind {α : Type} {grammar : Grammar} {context : HookContext}
    {target : context.Target} {next : HookOutcome × context.Target → Parsing α} {holds : α → Prop}
    (declined : Yields (next (.declined, target)) holds) :
    Yields (Hooks.none.ask grammar context target >>= next) holds :=
  fun state => declined state

section

variable {holds : Node → Prop}

theorem every_line {run : HtmlRun} (before : Every holds run.nodes) (span : Span)
    (value : String) : Every holds (run.line span value).nodes := by
  unfold HtmlRun.line
  split <;> exact before

section Html

variable (copied : ∀ {span value}, holds (.leaf span (.text value true)))

include copied

theorem every_close {run : HtmlRun} (before : Every holds run.nodes) :
    Every holds run.close := by
  unfold HtmlRun.close
  split
  · exact before.concat copied
  · exact before

theorem every_add {run : HtmlRun} {node : Node} (before : Every holds run.nodes)
    (found : holds node) : Every holds (run.add node).nodes := by
  unfold HtmlRun.add
  split
  · exact every_line before _ _
  · exact (every_close copied before).concat found

theorem every_foldl_add {nodes : List Node} (found : Every holds nodes) {run : HtmlRun}
    (before : Every holds run.nodes) :
    Every holds (nodes.foldl HtmlRun.add run).nodes := by
  induction nodes generalizing run with
  | nil => exact before
  | cons node rest ih =>
      rw [every_cons] at found
      exact ih found.2 (every_add copied before found.1)

end Html

theorem yields_interpolated {inner : Grammar} (reads : inner.YieldsNodes holds) :
    Yields (interpolated inner) holds :=
  .after fun _ => .bind reads.expression fun _ found => .after fun _ => .pure found

/-- The attributes of a list are distinct from each other and from those before it. -/
theorem yields_attributeTokens (budget : Nat) {names : List String}
    {before found : List Attribute} (noted : Attribute.Noted names (before ++ found)) :
    Yields (attributeTokens budget (some names) found)
      fun read => ∃ noted, read.1 = some noted ∧ Attribute.Noted noted (before ++ read.2) := by
  induction budget generalizing names found with
  | zero => exact .throw
  | succ budget ih =>
      apply Yields.after
      intro token
      split
      · rename_i name value _
        apply Yields.after
        intro _
        apply Yields.after
        intro span
        dsimp only
        split
        · next isClass =>
            refine .pure_bind (ih ?_)
            rw [← List.append_assoc]
            exact noted.concat (List.Subset.refl _) (fun _ => isClass) fun other =>
              absurd isClass other
        · split
          · exact .fail_bind
          · next unknown =>
              refine .pure_bind (ih ?_)
              rw [← List.append_assoc]
              exact noted.concat (List.subset_append_left _ _)
                (fun known => absurd (List.contains_iff_mem.mpr known) unknown)
                fun _ => List.mem_append_right _ (List.mem_singleton_self _)
      · exact .after fun _ => .pure ⟨names, rfl, noted⟩

theorem yields_tagAttributes {inner : Grammar} (budget : Nat) (seenList : Bool) {parts : TagParts}
    (before : Every holds parts.body.nodes)
    (noted : Attribute.Noted parts.names parts.attributes) :
    Yields (tagAttributes Hooks.none inner budget seenList parts) (TagParts.Sound holds) := by
  induction budget generalizing seenList parts with
  | zero => exact .throw
  | succ budget ih =>
      apply Yields.after
      intro token
      split
      · apply Yields.after
        intro _
        split
        · exact .fail_bind
        · next unknown =>
            refine .after fun span => ih seenList before ?_
            exact noted.concat (List.subset_append_left _ _)
              (fun known => absurd (List.contains_iff_mem.mpr known) unknown)
              fun _ => List.mem_append_right _ (List.mem_singleton_self _)
      · refine .after fun _ => .after fun span => ih seenList before ?_
        exact noted.concat (List.Subset.refl _) (fun _ => rfl) fun other => absurd rfl other
      · have lists : Yields (attributes budget (some parts.names)) fun read =>
            ∃ names, read.1 = some names ∧
              Attribute.Noted names (parts.attributes ++ read.2) := by
          refine .after fun _ => yields_attributeTokens budget ?_
          rwa [List.append_nil]
        have goesOn : Yields
            (attributes budget (some parts.names) >>= fun read =>
              tagAttributes Hooks.none inner budget true { parts with
                names := read.1.getD parts.names
                attributes := parts.attributes ++ read.2 }) (TagParts.Sound holds) := by
          apply Yields.bind lists
          rintro read ⟨names, known, noted⟩
          refine ih true before ?_
          rwa [known]
        split
        · exact .after fun _ => goesOn
        · exact goesOn
      · exact yields_ask_bind (.pure ⟨before, noted.distinct⟩)

variable [Composed holds]

theorem yields_textNode (token : Token) (value : String) :
    Yields (textNode token value) holds :=
  .after fun _ => .pure (Composed.leaf (by simp) trivial)

theorem every_splice {nodes : List Node} {node : Node} (before : Every holds nodes)
    (last : holds node) : Every holds (splice nodes node) := by
  unfold splice
  split
  · exact every_append.mpr ⟨before, Composed.dissolve last⟩
  · exact before.concat last

section Text

variable {inner : Grammar} (reads : inner.YieldsNodes holds)

include reads

theorem yields_textNodes (blockMode : Bool) (budget : Nat) {nodes : List Node}
    (before : Every holds nodes) :
    Yields (textNodes Hooks.none inner blockMode budget nodes) (Every holds) := by
  induction budget generalizing nodes with
  | zero => exact .throw
  | succ budget ih =>
      apply Yields.after
      intro token
      split
      · exact .after fun _ => .bind (yields_textNode _ _) fun node found =>
          ih (before.concat found)
      · exact .after fun _ => .after fun _ => ih (before.concat (Composed.leaf (by simp) trivial))
      · split
        · apply Yields.after
          intro _
          apply Yields.after
          intro following
          split
          · exact .bind (yields_textNode _ _) fun node found => ih (before.concat found)
          · exact .bind (yields_textNode _ _) fun node found => ih (before.concat found)
          · exact ih before
        · exact .pure before
      · exact .bind (yields_interpolated reads) fun node found => ih (before.concat found)
      · exact yields_ask_bind (.pure before)

theorem yields_text (blockMode : Bool) (budget : Nat) :
    Yields (text Hooks.none inner blockMode budget) holds := by
  apply Yields.after
  intro token
  apply Yields.after
  intro span
  refine .bind (yields_textNodes reads blockMode budget every_nil) fun nodes found => ?_
  split
  · exact .pure (every_cons.mp found).1
  · exact .pure (Composed.branch trivial found)

theorem yields_htmlRun (budget : Nat) {run : HtmlRun} (before : Every holds run.nodes) :
    Yields (htmlRun inner budget run) (Every holds) := by
  have copied {span : Span} {value : String} : holds (.leaf span (.text value true)) :=
    Composed.leaf (by simp) trivial
  induction budget generalizing run with
  | zero => exact .throw
  | succ budget ih =>
      apply Yields.after
      intro token
      split
      · exact .after fun _ => .after fun span => ih (every_line before span _)
      · exact .bind reads.block fun block found => ih (every_foldl_add copied found before)
      · exact .after fun _ => ih before
      · exact .pure (every_close copied before)

theorem yields_html (budget : Nat) : Yields (html inner budget) (Every holds) :=
  yields_htmlRun reads budget every_nil

theorem yields_textBlockNodes (budget : Nat) {block : Document}
    (before : Every holds block.nodes) :
    Yields (textBlockNodes Hooks.none inner budget block)
      fun block => Every holds block.nodes := by
  induction budget generalizing block with
  | zero => exact .throw
  | succ budget ih =>
      apply Yields.after
      intro token
      split
      · exact .after fun _ => .pure before
      · exact .after fun _ => .bind (yields_textNode _ _) fun node found =>
          ih (before.concat found)
      · exact .after fun _ => .bind (yields_textNode _ _) fun node found =>
          ih (before.concat found)
      · exact .bind (yields_interpolated reads) fun node found => ih (before.concat found)
      · exact .after fun _ => .after fun _ => ih (before.concat (Composed.leaf (by simp) trivial))
      · exact .fail
      · exact yields_ask_bind (.after fun _ => .fail)

theorem yields_textBlockIfAny (budget : Nat) :
    Yields (textBlockIfAny Hooks.none inner budget)
      fun block => ∀ found ∈ block, Every holds found.nodes := by
  apply Yields.after
  intro token
  split
  · apply Yields.after
    intro _
    apply Yields.after
    intro span
    refine .bind (yields_textBlockNodes reads budget every_nil) fun block found => .pure ?_
    simpa using found
  · exact .pure (by simp)

theorem yields_textBlockAt (budget : Nat) (span : Span) :
    Yields (textBlockAt Hooks.none inner budget span)
      fun block => Every holds block.nodes := by
  refine .bind (yields_textBlockIfAny reads budget) fun block found => .pure ?_
  cases block with
  | none => exact every_nil
  | some block => exact found block rfl

end Text

section Tag

variable {inner : Grammar} (reads : inner.YieldsNodes holds)

include reads

theorem yields_tagContent (budget : Nat) (selfClosingAllowed : Bool) {parts : TagParts}
    (before : parts.Sound holds) :
    Yields (tagContent Hooks.none inner budget selfClosingAllowed parts)
      (TagParts.Sound holds) := by
  apply Yields.after
  intro token
  split
  · exact .bind (yields_text reads false budget) fun node found =>
      .pure ⟨every_splice before.nodes found, before.distinct⟩
  · exact .bind (yields_text reads false budget) fun node found =>
      .pure ⟨every_splice before.nodes found, before.distinct⟩
  · apply Yields.after
    intro _
    apply Yields.bind reads.expression
    intro node found
    split
    · exact .pure ⟨Composed.dissolve found, before.distinct⟩
    · exact .pure ⟨.single found, before.distinct⟩
  · exact .pure before
  · exact .pure before
  · exact .pure before
  · exact .pure before
  · exact .pure before
  · exact .pure before
  · split
    · exact .after fun _ => .pure ⟨before.nodes, before.distinct⟩
    · exact yields_ask_bind (.after fun _ => .fail)
  · exact yields_ask_bind (.after fun _ => .fail)

theorem yields_tag (budget : Nat) (selfClosingAllowed : Bool) (span : Span) :
    Yields (tag Hooks.none inner budget selfClosingAllowed span) (TagParts.Sound holds) := by
  have nothing : Every holds (TagParts.start span).body.nodes := every_nil
  refine .bind (yields_tagAttributes budget false nothing Attribute.noted_nil)
    fun parts before => ?_
  apply Yields.after
  intro token
  dsimp only
  split
  case' h_1 => refine .after fun _ => ?_
  -- With a dot or without one, the rest of the tag is read in the same way.
  all_goals
    refine .pure_bind (.bind (yields_tagContent reads budget selfClosingAllowed
      ⟨before.nodes, before.distinct⟩) fun parts before => .after fun _ => ?_)
    split
    · exact .bind (yields_textBlockAt reads budget _) fun block found =>
        .pure ⟨found, before.distinct⟩
    · apply Yields.after
      intro token
      split
      · exact .bind reads.block fun block found =>
          .pure ⟨by simp [before.nodes, found], before.distinct⟩
      · exact .pure before

theorem yields_namedTag (budget : Nat) (name : String) (span : Span) :
    Yields (namedTag Hooks.none inner budget name span) holds :=
  .bind (yields_tag reads budget true span) fun _ found =>
    .pure (Composed.branch found.distinct found.nodes)

theorem yields_variableTag (budget : Nat) (expression : String) (span : Span) :
    Yields (variableTag Hooks.none inner budget expression span) holds :=
  .bind (yields_tag reads budget true span) fun _ found =>
    .pure (Composed.branch found.distinct found.nodes)

theorem yields_call (budget : Nat) (name : String) (arguments : Option String) (span : Span) :
    Yields (call Hooks.none inner budget name arguments span) holds := by
  apply Yields.bind (yields_tag reads budget false span)
  intro parts found
  dsimp only
  split
  · exact .pure (Composed.leaf (by simp) found.distinct)
  · exact .pure (Composed.branch found.distinct found.nodes)

end Tag

section Expression

variable {inner : Grammar} (reads : inner.YieldsNodes holds)

include reads

theorem yields_blockNodes (budget : Nat) {block : Document} (before : Every holds block.nodes) :
    Yields (blockNodes inner budget block) fun block => Every holds block.nodes := by
  induction budget generalizing block with
  | zero => exact .throw
  | succ budget ih =>
      apply Yields.after
      intro token
      split
      · exact .after fun _ => .pure before
      · exact .after fun _ => ih before
      · exact .bind (yields_html reads budget) fun nodes found => ih (by simp [before, found])
      · exact .bind reads.expression fun node found => ih (every_splice before found)

theorem yields_indentedBlock (budget : Nat) :
    Yields (indentedBlock inner budget) fun block => Every holds block.nodes :=
  .after fun _ => .after fun _ => yields_blockNodes reads budget every_nil

theorem yields_filter (budget : Nat) (name : String) (span : Span) :
    Yields (filter Hooks.none inner budget name span) holds := by
  induction budget generalizing name span with
  | zero => exact .throw
  | succ budget ih =>
      apply Yields.after
      intro found
      apply Yields.after
      intro token
      dsimp only
      split
      · exact .after fun _ => .after fun _ => .bind (yields_textNode _ _) fun node found =>
          .pure_bind (.pure (Composed.branch trivial (.single found)))
      · exact .after fun _ => .after fun _ => .bind (ih _ _) fun node found =>
          .pure_bind (.pure (Composed.branch trivial (.single found)))
      · exact .bind (yields_textBlockAt reads budget span) fun body found =>
          .pure (Composed.branch trivial found)

theorem yields_inclusion (budget : Nat) (span : Span) :
    Yields (inclusion inner budget span) holds := by
  apply Yields.after
  intro filters
  apply Yields.after
  intro found
  apply Yields.after
  intro place
  apply Yields.after
  intro token
  dsimp only
  split
  · split
    · exact .bind reads.block fun body found => .pure (Composed.file rfl found)
    · exact .pure_bind (.pure (Composed.file rfl every_nil))
  · split
    · exact .fail
    · exact .pure (Composed.file rfl every_nil)

end Expression

end

theorem yields_mixin {holds : Bool → Node → Prop} [ComposedIn holds] {inside : Grammar}
    (reads : inside.YieldsNodes (holds true)) (inMixin : Bool) (name : String)
    (arguments : Option String) (start : Span) :
    Yields (mixin inside name arguments start) (holds inMixin) := by
  apply Yields.after
  intro token
  split
  · exact .bind reads.block fun body found => .after fun _ => .pure (ComposedIn.declaration found)
  · exact .fail

theorem yields_expressionRule {holds : Bool → Node → Prop} [ComposedIn holds]
    {layer : Bool → Grammar} (reads : ∀ inMixin, (layer inMixin).YieldsNodes (holds inMixin))
    (inMixin : Bool) (budget : Nat) :
    Yields (expressionRule Hooks.none layer inMixin budget) (holds inMixin) := by
  apply Yields.after
  intro token
  apply Yields.after
  intro span
  have inner := reads inMixin
  dsimp only
  split
  · exact .after fun _ => yields_namedTag inner _ _ _
  · exact yields_namedTag inner _ _ _
  · exact yields_namedTag inner _ _ _
  · exact .after fun _ => yields_mixin (reads true) _ _ _ _
  · apply Yields.after
    intro _
    apply Yields.after
    intro following
    split
    · exact .bind inner.block fun body found => .pure_bind (.pure (Composed.branch trivial found))
    · exact .pure_bind (.pure (Composed.branch trivial every_nil))
  · apply Yields.after
    intro _
    split
    · rename_i inside
      rw [inside]
      exact .pure ComposedIn.mixinBlock
    · exact .fail
  · exact .after fun _ => .after fun _ => .after fun _ => .pure (Composed.file rfl every_nil)
  · exact .after fun _ => yields_inclusion inner _ _
  · exact .after fun _ => .pure (Composed.leaf (by simp) trivial)
  · exact .after fun _ => yields_filter inner _ _ _
  · apply Yields.after
    intro _
    apply Yields.bind (yields_textBlockIfAny inner budget)
    intro body found
    split
    · exact .pure (Composed.branch trivial (found _ rfl))
    · exact .pure (Composed.leaf (by simp) trivial)
  · exact yields_text inner true budget
  · exact yields_text inner true budget
  · exact yields_text inner true budget
  · exact .bind (yields_html inner budget) fun nodes found => .pure (Composed.branch trivial found)
  · exact .after fun _ => .bind (yields_textBlockAt inner budget _) fun body found =>
      .pure (Composed.branch trivial found)
  · exact .after fun _ => yields_call inner _ _ _ _
  · exact .after fun _ => yields_variableTag inner _ _ _
  · exact .after fun _ => .pure (Composed.leaf (by simp) trivial)
  · exact yields_ask_bind (.after fun _ => .fail)

end Grammar

section

variable (holds : Bool → Node → Prop) [ComposedIn holds]

/-- Each layer reads nodes with the property, as the one below it does. -/
theorem yieldsNodes_grammar (layers : Nat) (inMixin : Bool) :
    (grammar Hooks.none layers inMixin).YieldsNodes (holds inMixin) := by
  induction layers generalizing inMixin with
  | zero => exact ⟨.throw, .throw, .throw⟩
  | succ layers ih =>
      exact {
        expression := Grammar.yields_expressionRule ih inMixin layers
        block := Grammar.yields_indentedBlock (ih inMixin) layers
        textBlock := Grammar.yields_textBlockIfAny (ih inMixin) layers }

theorem yields_documentNodes {holds : Node → Prop} [Composed holds] {inner : Grammar}
    (reads : inner.YieldsNodes holds) (budget : Nat) {nodes : List Node}
    (before : Every holds nodes) :
    Yields (documentNodes inner budget nodes) (Every holds) := by
  induction budget generalizing nodes with
  | zero => exact .throw
  | succ budget ih =>
      apply Yields.after
      intro token
      split
      · exact .pure before
      · exact .after fun _ => ih before
      · exact .bind (Grammar.yields_html reads budget) fun found each =>
          ih (by simp [before, each])
      · exact .bind reads.expression fun node found => ih (Grammar.every_splice before found)

theorem yields_documentRule (budget : Nat) :
    Yields (documentRule Hooks.none budget) fun document => Every (holds false) document.nodes :=
  .bind (yields_documentNodes (yieldsNodes_grammar holds budget false) budget every_nil)
    fun _ found => .after fun _ => .pure found

/-- The nodes of a document have the property when it has just been put together from its tokens. -/
theorem satisfies_parse (tokens : List Token) (file source : Option String) :
    Satisfies (parse tokens { file, source }) (fun document => Every (holds false) document.nodes)
      fun _ => True := by
  intro events
  have read := yields_documentRule holds (parseBudget tokens.length)
    { TokenStream.ofTokens file source tokens with events := events }
  dsimp only [parse]
  revert read
  cases documentRule Hooks.none (parseBudget tokens.length)
      { TokenStream.ofTokens file source tokens with events := events } with
  | ok document stream => exact id
  | error stop stream => cases stop <;> exact fun _ => trivial

/-- The nodes of a document have the property when it has just been read from its source. -/
theorem satisfies_ofSource (file : Option String) (source : String) :
    Satisfies (Document.ofSource {} file source)
      (fun document => Every (holds false) document.nodes)
      fun failure => (∃ fault, failure = .token fault) ∨ ∃ fault, failure = .parse fault :=
  .bind (.adaptExcept (.trivial _) fun fault _ => .inl ⟨fault, rfl⟩) fun tokens _ =>
    .adaptExcept (satisfies_parse holds tokens.toList file source) fun fault _ => .inr ⟨fault, rfl⟩

end

end Offside
