import Mathlib.Data.List.Infix
import Offside.Proofs.Attributes.Repetition

/-!
# Blocks without a name

A block without a name is dissolved into its nodes where it is added to others. The exception is
what stands in an interpolation: it is added as it is, so that it has to be a single node.
-/

namespace Offside

open Computing Parsing

namespace Node

/-- Whether a node is a block without a name. -/
def isBlock : Node → Bool
  | branch _ .block _ => true
  | _ => false

/-- The node is no block without a name, and in its body there is none at any depth. -/
def Flat (node : Node) : Prop :=
  Every (fun found => found.isBlock = false) node.walk

/-- In the body of the node there is no block without a name at any depth. -/
def FlatBelow (node : Node) : Prop :=
  Every Flat (node.children?.getD [])

section

variable {node : Node} {nodes children : List Node}

theorem flat_iff : node.Flat ↔ node.isBlock = false ∧ node.FlatBelow := by
  cases node with
  | leaf => simp [Flat, FlatBelow, walk, children?]
  | branch =>
      simp only [Flat, FlatBelow, walk, every_cons, every_walkAll_iff]
      rfl
  | file span use =>
      cases use with
      | inclusion =>
          simp only [Flat, FlatBelow, walk, every_cons, every_walkAll_iff]
          rfl
      | raw | inheritance => simp [Flat, FlatBelow, walk, children?]

@[simp]
theorem flat_leaf {span : Span} {content : Leaf} : (Node.leaf span content).Flat := by
  simp [Flat, walk, isBlock]

theorem flat_branch {span : Span} {label : Label} (other : label ≠ .block)
    (inside : Every Flat children) : (Node.branch span label children).Flat := by
  refine flat_iff.mpr ⟨?_, inside⟩
  cases label <;> first | rfl | exact absurd rfl other

theorem flat_file {span : Span} {use : FileUse} {reference : Reference} {loaded : List Node}
    (inside : Every Flat children) : (Node.file span use reference loaded children).Flat := by
  refine flat_iff.mpr ⟨rfl, ?_⟩
  cases use with
  | inclusion => exact inside
  | raw | inheritance => exact every_nil

theorem FlatBelow.flat (below : node.FlatBelow)
    (other : ∀ span children, node ≠ .branch span .block children) : node.Flat := by
  refine flat_iff.mpr ⟨?_, below⟩
  unfold isBlock
  split
  · exact absurd rfl (other _ _)
  · rfl

/-- What is added to other nodes is dissolved, if it is a block. -/
theorem every_flat_splice (before : Every Flat nodes) (below : node.FlatBelow) :
    Every Flat (Grammar.splice nodes node) := by
  unfold Grammar.splice
  split
  · exact every_append.mpr ⟨before, below⟩
  · next other => exact before.concat (below.flat other)

end

end Node

/-- Whether what begins with these two tokens in an interpolation is a single node: a text or a
variable must be alone there, and no other interpolation, no line to copy and no text block may
begin. -/
def TokenKind.beginsSingle (first second : TokenKind) : Bool :=
  match first with
  | .text _ | .code .. => second = .endInterpolation
  | .startInterpolation | .html _ | .dot => false
  | _ => true

/-- A text or a variable. -/
def TokenKind.isWord : TokenKind → Bool
  | .text _ | .code .. => true
  | _ => false

theorem TokenKind.beginsSingle_iff_of_isWord {first second : TokenKind} (word : first.isWord) :
    beginsSingle first second ↔ second = .endInterpolation := by
  cases first
  case text | code => exact decide_eq_true_iff
  all_goals cases word

/-- In every interpolation stands a single node. -/
def InterpolationsSingle (kinds : List TokenKind) : Prop :=
  ∀ part, part <:+ kinds → part.headD .eos = .startInterpolation →
    TokenKind.beginsSingle (part.tail.headD .eos) (part.tail.tail.headD .eos)

instance (kinds : List TokenKind) : Decidable (InterpolationsSingle kinds) :=
  decidable_of_iff
    (∀ part ∈ kinds.tails, part.headD .eos = .startInterpolation →
      TokenKind.beginsSingle (part.tail.headD .eos) (part.tail.tail.headD .eos))
    (by simp only [InterpolationsSingle, List.mem_tails])

variable {tokens : List Token} {file : Option String} {stream : TokenStream}

namespace TokenStream

theorem headD_map_kind (ending : stream.ending.kind = .eos) :
    (stream.pending.map Token.kind).headD .eos = stream.next.kind := by
  unfold next
  cases stream.pending with
  | nil => exact ending.symm
  | cons token rest => rfl

theorem ReadsOn.beginsSingle (reads : stream.ReadsOn tokens file)
    (single : InterpolationsSingle (tokens.map Token.kind))
    (opens : stream.next.kind = .startInterpolation) :
    TokenKind.beginsSingle stream.tail.next.kind stream.tail.tail.next.kind := by
  have left : stream.pending.map Token.kind <:+ tokens.map Token.kind := reads.pending.map _
  have kinds (later : TokenStream) (same : later.ending = stream.ending) :
      (later.pending.map Token.kind).headD .eos = later.next.kind :=
    headD_map_kind (same ▸ reads.ending)
  have begins := single _ left ((kinds stream rfl).trans opens)
  rw [← List.map_tail, ← List.map_tail] at begins
  rwa [← kinds stream.tail rfl, ← kinds stream.tail.tail rfl]

/-- What an expression gives that begins here: in its body there is no block without a name, and it
is none itself where a single node begins. -/
structure Gives (stream : TokenStream) (node : Node) : Prop where
  below : node.FlatBelow
  single : TokenKind.beginsSingle stream.next.kind stream.tail.next.kind → node.isBlock = false

theorem Gives.of_flat {node : Node} (flat : node.Flat) : stream.Gives node :=
  ⟨(Node.flat_iff.mp flat).2, fun _ => (Node.flat_iff.mp flat).1⟩

/-- Where more than a single node may begin, an expression may be a block. -/
theorem Gives.of_below {node : Node}
    (never : ¬TokenKind.beginsSingle stream.next.kind stream.tail.next.kind)
    (below : node.FlatBelow) : stream.Gives node :=
  ⟨below, fun begins => absurd begins never⟩

end TokenStream

theorem Parsing.Leads.ensures {α : Type} {action : Parsing α} {holds : α → TokenStream → Prop}
    (leads : Leads tokens file action stream holds) : Ensures action stream holds := by
  intro value after done
  unfold Leads at leads
  simpa only [done] using leads

/-- From one of a template's streams the computation leads to another one, with a value that has a
property. -/
def Parsing.Flattens {α : Type} (tokens : List Token) (file : Option String) (stream : TokenStream)
    (action : Parsing α) (holds : α → Prop) : Prop :=
  stream.ReadsOn tokens file → Ensures action stream fun value after =>
    after.ReadsOn tokens file ∧ holds value

namespace Parsing.Flattens

variable {α β : Type} {action : Parsing α} {next : α → Parsing β} {first : α → Prop}
  {holds : β → Prop}

theorem pure {value : β} (given : holds value) :
    Flattens tokens file stream (Pure.pure value) holds :=
  fun reads => .pure ⟨reads, given⟩

theorem throw {stop : ParseStop} : Flattens tokens file stream (throw stop) holds :=
  fun _ => .throw

theorem fail {span : Span} {cause : ParseFault} :
    Flattens tokens file stream (Parsing.fail span cause) holds :=
  fun _ => .get_bind .throw

theorem mono {holdsMore : β → Prop} {action : Parsing β}
    (flattens : Flattens tokens file stream action holds)
    (values : ∀ value, holds value → holdsMore value) :
    Flattens tokens file stream action holdsMore :=
  fun reads => (flattens reads).mono fun value _ found => ⟨found.1, values value found.2⟩

theorem bind (before : Flattens tokens file stream action first)
    (each : ∀ value middle, first value → Flattens tokens file middle (next value) holds) :
    Flattens tokens file stream (action >>= next) holds :=
  fun reads => (before reads).bind fun value middle found => each value middle found.2 found.1

/-- Where the first result does not matter. -/
theorem after (stays : Stays tokens file action)
    (each : ∀ value middle, Flattens tokens file middle (next value) holds) :
    Flattens tokens file stream (action >>= next) holds :=
  fun reads => (stays stream reads).ensures.bind fun value middle found => each value middle found

theorem pure_bind {value : α} (given : Flattens tokens file stream (next value) holds) :
    Flattens tokens file stream (Pure.pure value >>= next) holds :=
  given

theorem peek {next : Token → Parsing β}
    (each : Flattens tokens file stream (next stream.next) holds) :
    Flattens tokens file stream (Parsing.peek >>= next) holds :=
  each

theorem place {next : Span → Parsing β} {span : Span}
    (each : ∀ placed, Flattens tokens file stream (next placed) holds) :
    Flattens tokens file stream (Parsing.place span >>= next) holds :=
  each (stream.place span)

theorem advance {next : Token → Parsing β}
    (each : Flattens tokens file stream.tail (next stream.next) holds) :
    Flattens tokens file stream (Parsing.advance >>= next) holds :=
  fun reads => each ⟨reads.file, reads.ending, (List.tail_suffix _).trans reads.pending⟩

theorem gives {start : TokenStream} {action : Parsing Node}
    (flattens : Flattens tokens file stream action Node.Flat) :
    Flattens tokens file stream action start.Gives :=
  flattens.mono fun _ => .of_flat

end Parsing.Flattens

end Offside
