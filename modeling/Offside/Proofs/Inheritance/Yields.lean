import Offside.Inheritance.Yield

/-!
# What an included file does with the nodes that it is given

A stencil is a part of a document with gaps in it, at any depth. The nodes of an included file are
stencils with a yield in each gap, and the nodes given to the file take the place of these yields.
The nodes of a file that never yields are stencils with one empty gap at the end of a list, which
the given nodes fill. All that is not a gap stays as it is.
-/

namespace Offside

/-- A part of a document that may have gaps. -/
inductive Stencil where
  /-- A gap, and the place where it is. -/
  | gap (span : Span)
  /-- A node without gaps. -/
  | whole (node : Node)
  /-- A branch that may have gaps in its body. -/
  | branch (span : Span) (label : Label) (children : List Stencil)
  /-- An include that may have gaps in its body. -/
  | inclusion (span body : Span) (reference : Reference) (loaded : List Node)
      (children : List Stencil)

namespace Stencil

mutual

/-- The nodes of a stencil when something is put into each gap. -/
def fill (put : Span → List Node) : Stencil → List Node
  | gap span => put span
  | whole node => [node]
  | branch span label children => [.branch span label (fillAll put children)]
  | inclusion span body reference loaded children =>
      [.file span (.inclusion body) reference loaded (fillAll put children)]

/-- The nodes of some stencils when something is put into each gap. -/
def fillAll (put : Span → List Node) : List Stencil → List Node
  | [] => []
  | stencil :: rest => stencil.fill put ++ fillAll put rest

end

mutual

/-- The number of gaps in a stencil. -/
def gaps : Stencil → Nat
  | gap _ => 1
  | whole _ => 0
  | branch _ _ children | inclusion _ _ _ _ children => gapsAll children

/-- The number of gaps in some stencils. -/
def gapsAll : List Stencil → Nat
  | [] => 0
  | stencil :: rest => stencil.gaps + gapsAll rest

end

section

variable {put : Span → List Node}

theorem fillAll_append (first second : List Stencil) :
    fillAll put (first ++ second) = fillAll put first ++ fillAll put second := by
  induction first with
  | nil => rfl
  | cons stencil rest ih => simp [fillAll, ih]

@[simp]
theorem fillAll_whole (nodes : List Node) : fillAll put (nodes.map whole) = nodes := by
  induction nodes with
  | nil => rfl
  | cons node rest ih => simp [fillAll, fill, ih]

end

end Stencil

/-! ### Files that yield -/

namespace Node

/-- Whether a node is a place where an included file yields. -/
def isYield : Node → Bool
  | leaf _ .yieldSlot => true
  | _ => false

/-- The number of yields among some nodes and in their bodies. -/
def yieldCount (nodes : List Node) : Nat :=
  (walkAll nodes).countP isYield

/-- The yield at a place. -/
def yieldAt (span : Span) : List Node :=
  [.leaf span .yieldSlot]

mutual

/-- A node as a stencil that has gaps in place of the yields. -/
def stencil : Node → Stencil
  | leaf span .yieldSlot => .gap span
  | leaf span content => .whole (.leaf span content)
  | branch span label children => .branch span label (stencils children)
  | file span (.inclusion body) reference loaded children =>
      .inclusion span body reference loaded (stencils children)
  | file span use reference loaded children => .whole (.file span use reference loaded children)

/-- Some nodes as stencils that have gaps in place of the yields. -/
def stencils : List Node → List Stencil
  | [] => []
  | node :: rest => node.stencil :: stencils rest

end

mutual

theorem fill_stencil : ∀ node : Node, node.stencil.fill yieldAt = [node]
  | leaf _ content => by cases content <;> simp [stencil, Stencil.fill, yieldAt]
  | branch _ _ children => by simp [stencil, Stencil.fill, fillAll_stencils children]
  | file _ use _ _ children => by
      cases use <;> simp [stencil, Stencil.fill, fillAll_stencils children]

/-- With a yield in each gap the stencils are the nodes that they were made from. -/
theorem fillAll_stencils : ∀ nodes : List Node, Stencil.fillAll yieldAt (stencils nodes) = nodes
  | [] => rfl
  | node :: rest => by simp [stencils, Stencil.fillAll, fill_stencil node, fillAll_stencils rest]

end

mutual

theorem gaps_stencil : ∀ node : Node, node.stencil.gaps = node.walk.countP isYield
  | leaf _ content => by cases content <;> simp [stencil, Stencil.gaps, walk, isYield]
  | branch _ _ children => by
      simpa [stencil, Stencil.gaps, walk, isYield, yieldCount] using gapsAll_stencils children
  | file _ use _ _ children => by
      cases use with
      | inclusion body =>
          simpa [stencil, Stencil.gaps, walk, isYield, yieldCount] using gapsAll_stencils children
      | inheritance | raw => simp [stencil, Stencil.gaps, walk, isYield]

/-- There are as many gaps as there were yields. -/
theorem gapsAll_stencils : ∀ nodes : List Node,
    Stencil.gapsAll (stencils nodes) = yieldCount nodes
  | [] => rfl
  | node :: rest => by
      have others := gapsAll_stencils rest
      simp only [yieldCount] at others ⊢
      simp [stencils, Stencil.gapsAll, walkAll, gaps_stencil node, others]

end

end Node

section

variable (given : List Node)

mutual

theorem replaceYields_eq : ∀ node : Node,
    replaceYields given node = (node.stencil.fill fun _ => given, node.stencil.gaps)
  | .leaf _ content => by
      cases content <;> simp [replaceYields, Node.stencil, Stencil.fill, Stencil.gaps]
  | .branch _ _ children => by
      simp [replaceYields, Node.stencil, Stencil.fill, Stencil.gaps, replaceAllYields_eq children]
  | .file _ use _ _ children => by
      cases use <;>
        simp [replaceYields, Node.stencil, Stencil.fill, Stencil.gaps, replaceAllYields_eq children]

/-- To replace the yields is to fill the gaps. -/
theorem replaceAllYields_eq : ∀ nodes : List Node,
    replaceAllYields given nodes =
      (Stencil.fillAll (fun _ => given) (Node.stencils nodes),
        Stencil.gapsAll (Node.stencils nodes))
  | [] => rfl
  | node :: rest => by
      simp [replaceAllYields, Node.stencils, Stencil.fillAll, Stencil.gapsAll,
        replaceYields_eq node, replaceAllYields_eq rest]

end

end

/-! ### Files that never yield -/

/-- Whether a branch is never given content at its end: it has a text block, or stands for something
else than itself. -/
def Label.refusesContent : Label → Bool
  | tag head _ => head.textOnly
  | variableTag head _ => head.textOnly
  | namedBlock .. | filter .. => true
  | block | mixin .. | blockComment .. => false

theorem Label.refusesContent_of_takesContent {label : Label} {empty : Bool}
    (takes : label.takesContent empty = true) : label.refusesContent = false := by
  cases label <;> simp_all [takesContent, refusesContent]

namespace Stencil

/-- There is one gap, at the end of one list of nodes, and no branch around it refuses content. -/
inductive GapAtEnd : List Stencil → Prop where
  | here (before : List Node) (span : Span) : GapAtEnd (before.map whole ++ [gap span])
  | branch (before after : List Node) (span : Span) {label : Label} {children : List Stencil}
      (accepts : label.refusesContent = false) (inside : GapAtEnd children) :
      GapAtEnd (before.map whole ++ branch span label children :: after.map whole)
  | inclusion (before after : List Node) (span body : Span) (reference : Reference)
      (loaded : List Node) {children : List Stencil} (inside : GapAtEnd children) :
      GapAtEnd (before.map whole ++
        inclusion span body reference loaded children :: after.map whole)

/-- Some stencils are some nodes while their gaps are empty, and become others when these are
filled. -/
structure Becomes (stencils : List Stencil) (nodes given filled : List Node) : Prop where
  empty : fillAll (fun _ => []) stencils = nodes
  filled : fillAll (fun _ => given) stencils = filled

variable {given nodes filled children : List Node}

theorem becomes_here (nodes given : List Node) :
    ∃ stencils, GapAtEnd stencils ∧ Becomes stencils nodes given (nodes ++ given) := by
  refine ⟨_, .here nodes {}, ?_, ?_⟩
  · simp [fillAll_append, fillAll, fill]
  · simp [fillAll_append, fillAll, fill]

/-- A gap in the body of a node is a gap among the nodes around it. -/
theorem GapAtEnd.cons {stencils : List Stencil} (gapAtEnd : GapAtEnd stencils)
    (becomes : Becomes stencils nodes given filled) (node : Node) :
    ∃ stencils, GapAtEnd stencils ∧ Becomes stencils (node :: nodes) given (node :: filled) := by
  refine ⟨.whole node :: stencils, ?_, ?_, ?_⟩
  · cases gapAtEnd with
    | here before span => exact .here (node :: before) span
    | branch before after span accepts inside =>
        exact .branch (node :: before) after span accepts inside
    | inclusion before after span body reference loaded inside =>
        exact .inclusion (node :: before) after span body reference loaded inside
  · simp [fillAll, fill, becomes.empty]
  · simp [fillAll, fill, becomes.filled]

end Stencil

section

variable (given : List Node)

mutual

/-- A node that takes what is given takes it at the end of a list in its body. -/
theorem exists_stencils_of_appendInside? : ∀ {node result : Node} (rest : List Node),
    appendInside? given node = some result →
      ∃ stencils, Stencil.GapAtEnd stencils ∧
        Stencil.Becomes stencils (node :: rest) given (result :: rest)
  | .leaf .., _, _, found => by simp [appendInside?] at found
  | .branch span label children, _, rest, found => by
      unfold appendInside? at found
      split at found
      · next takes =>
          cases found
          rcases exists_stencils_of_appendToLast? children with ⟨stencils, inside, becomes⟩
          have accepts := Label.refusesContent_of_takesContent takes
          refine ⟨_, .branch [] rest span accepts inside, ?_, ?_⟩
          · simp [Stencil.fillAll, Stencil.fill, becomes.empty]
          · simp [Stencil.fillAll, Stencil.fill, becomes.filled]
      · cases found
  | .file span (.inclusion body) reference loaded children, _, rest, found => by
      unfold appendInside? at found
      split at found
      · cases found
      · cases found
        rcases exists_stencils_of_appendToLast? children with ⟨stencils, inside, becomes⟩
        refine ⟨_, .inclusion [] rest span body reference loaded inside, ?_, ?_⟩
        · simp [Stencil.fillAll, Stencil.fill, becomes.empty]
        · simp [Stencil.fillAll, Stencil.fill, becomes.filled]
  | .file _ .inheritance .., _, _, found => by simp [appendInside?] at found
  | .file _ (.raw _) .., _, _, found => by simp [appendInside?] at found

/-- What is given comes to the end of a list of nodes: one in the last node that takes it, or this
list itself. -/
theorem exists_stencils_of_appendToLast? : ∀ nodes : List Node,
    ∃ stencils, Stencil.GapAtEnd stencils ∧
      Stencil.Becomes stencils nodes given ((appendToLast? given nodes).getD (nodes ++ given))
  | [] => Stencil.becomes_here [] given
  | node :: rest => by
      unfold appendToLast?
      cases deeper : appendToLast? given rest with
      | some result =>
          rcases exists_stencils_of_appendToLast? rest with ⟨stencils, gapAtEnd, becomes⟩
          rw [deeper] at becomes
          exact gapAtEnd.cons becomes node
      | none =>
          cases inside : appendInside? given node with
          | some result => exact exists_stencils_of_appendInside? rest inside
          | none => exact Stencil.becomes_here (node :: rest) given

end

end

/-! ### All files -/

/-- A file that yields gets what it is given in place of each yield, at whatever depth, and a file
that never yields gets it once, at the end of one list of nodes, which is not the body of a named
block, a filter or a tag with a text block. Nothing else changes. -/
theorem exists_stencils_of_applyYield {given : List Node} (someGiven : given ≠ [])
    (nodes : List Node) :
    (0 < Node.yieldCount nodes →
      ∃ stencils, Stencil.gapsAll stencils = Node.yieldCount nodes ∧
        Stencil.fillAll Node.yieldAt stencils = nodes ∧
          Stencil.fillAll (fun _ => given) stencils = applyYield given nodes) ∧
    (Node.yieldCount nodes = 0 →
      ∃ stencils, Stencil.GapAtEnd stencils ∧
        Stencil.fillAll (fun _ => []) stencils = nodes ∧
          Stencil.fillAll (fun _ => given) stencils = applyYield given nodes) := by
  have notEmpty : given.isEmpty = false := by simpa using someGiven
  unfold applyYield
  rw [notEmpty, replaceAllYields_eq, Node.gapsAll_stencils]
  constructor
  · intro yields
    refine ⟨Node.stencils nodes, Node.gapsAll_stencils nodes, Node.fillAll_stencils nodes, ?_⟩
    cases count : Node.yieldCount nodes with
    | zero => simp [count] at yields
    | succ others => rfl
  · intro never
    rcases exists_stencils_of_appendToLast? given nodes with ⟨stencils, gapAtEnd, becomes⟩
    refine ⟨stencils, gapAtEnd, becomes.empty, ?_⟩
    rw [never]
    exact becomes.filled

/-- Some text and a yield go to the two yields of one file, and to the last item of a list in
another file, behind which stands a tag with a text block. -/
theorem exists_stencils_of_applyYield_list :
    let text (value : String) : Node := .leaf {} (.text value false)
    let tag (textOnly : Bool) (children : List Node) : Node :=
      .branch {} (.tag ⟨"li", false, false, textOnly, []⟩ {}) children
    let slot : Node := .leaf {} .yieldSlot
    [text "c", slot] ≠ [] ∧
    (0 < Node.yieldCount [tag false [slot, text "a"], slot] ∧
      (∃ stencils, Stencil.gapsAll stencils = 2 ∧
        Stencil.fillAll Node.yieldAt stencils = [tag false [slot, text "a"], slot] ∧
          Stencil.fillAll (fun _ => [text "c", slot]) stencils =
            [tag false [text "c", slot, text "a"], text "c", slot])) ∧
    (Node.yieldCount [tag false [text "a"], tag true [text "b"]] = 0 ∧
      ∃ stencils, Stencil.GapAtEnd stencils ∧
        Stencil.fillAll (fun _ => []) stencils = [tag false [text "a"], tag true [text "b"]] ∧
          Stencil.fillAll (fun _ => [text "c", slot]) stencils =
            [tag false [text "a", text "c", slot], tag true [text "b"]]) := by
  intro text tag slot
  have given : [text "c", slot] ≠ [] := List.cons_ne_nil _ _
  have yielding := exists_stencils_of_applyYield given [tag false [slot, text "a"], slot]
  have silent := exists_stencils_of_applyYield given [tag false [text "a"], tag true [text "b"]]
  exact ⟨given, ⟨Nat.two_pos, yielding.1 Nat.two_pos⟩, rfl, silent.2 rfl⟩

end Offside
