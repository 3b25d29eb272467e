import Mathlib.Data.List.Nodup
import Mathlib.Data.List.TakeWhile
import Offside.Html.Render
import Offside.Proofs.Attributes.Names

/-!
# Start tags have each attribute once

All classes of an element are written in the place of the first one, and every other attribute in
its own place. So if the other names are different then no name is written twice. Where no class has
a text there is nothing to put together, and each class is written by itself: then there must not be
two of them.
-/

namespace Offside.Html

/-- An attribute as it stands in a start tag. -/
structure WrittenAttribute where
  name : String
  /-- What stands between the quotation marks, if there are any. -/
  value : Option String

/-- The text of an attribute in a start tag. -/
def WrittenAttribute.text (entry : WrittenAttribute) : String :=
  match entry.value with
  | none => " " ++ entry.name
  | some value => " " ++ entry.name ++ "=\x22" ++ value ++ "\x22"

/-- The text of some attributes in a start tag. -/
def writtenText (entries : List WrittenAttribute) : String :=
  String.join (entries.map WrittenAttribute.text)

/-- An attribute that is written by itself. -/
def asWritten (entry : Attribute) : WrittenAttribute where
  name := entry.name
  value := entry.value.text?.map (written entry.escaped)

@[simp]
theorem name_asWritten (entry : Attribute) : (asWritten entry).name = entry.name := rfl

/-- Whether an attribute is no class. -/
def isOther (entry : Attribute) : Bool :=
  entry.name ≠ "class"

/-- All classes among some attributes as one: their texts with a space between each two of them, or
nothing where no class has a text. -/
def mergedClass (attributes : List Attribute) : WrittenAttribute where
  name := "class"
  value :=
    match classTexts attributes with
    | [] => none
    | texts => some (" ".intercalate texts)

/-- The attributes in their order, with all classes in the place of the first one. -/
def mergeClasses (attributes : List Attribute) : List WrittenAttribute :=
  (attributes.takeWhile isOther).map asWritten ++
    match attributes.dropWhile isOther with
    | [] => []
    | _ :: rest => mergedClass attributes :: (rest.filter isOther).map asWritten

/-- The classes can be put together: one of them has a text, or there are no two of them. -/
def Mergeable (attributes : List Attribute) : Prop :=
  classTexts attributes ≠ [] ∨ (attributes.filter (!isOther ·)).length ≤ 1

/-! ### What is written -/

section

variable {classes : List String} {done : Bool} {attributes before rest : List Attribute}

theorem attributeText_eq (entry : Attribute) : attributeText entry = (asWritten entry).text := by
  unfold attributeText WrittenAttribute.text asWritten
  cases entry.value <;> rfl

@[simp]
theorem writtenText_nil : writtenText [] = "" := rfl

@[simp]
theorem writtenText_cons (entry : WrittenAttribute) (entries : List WrittenAttribute) :
    writtenText (entry :: entries) = entry.text ++ writtenText entries := by
  simp [writtenText]

theorem writtenText_append (first second : List WrittenAttribute) :
    writtenText (first ++ second) = writtenText first ++ writtenText second := by
  simp [writtenText]

/-- In front of the first class every attribute is written by itself. -/
theorem attributesWith_append (other : ∀ entry ∈ before, isOther entry) :
    attributesWith classes done (before ++ rest) =
      writtenText (before.map asWritten) ++ attributesWith classes done rest := by
  induction before with
  | nil => simp
  | cons entry before ih =>
      rw [List.forall_mem_cons] at other
      have noClass : entry.name ≠ "class" := by simpa [isOther] using other.1
      simp [attributesWith, noClass, ih other.2, attributeText_eq, String.append_assoc]

/-- Behind the first class the classes are left out when they have been put together. -/
theorem attributesWith_true (someText : classes ≠ []) :
    attributesWith classes true rest = writtenText ((rest.filter isOther).map asWritten) := by
  induction rest with
  | nil => simp [attributesWith]
  | cons entry rest ih =>
      unfold attributesWith
      by_cases isClass : entry.name = "class"
      · simp [isClass, someText, isOther, ih]
      · simp [isClass, isOther, ih, attributeText_eq]

/-- Where no class has a text every attribute is written by itself. -/
theorem attributesWith_nil :
    attributesWith [] done attributes = writtenText (attributes.map asWritten) := by
  induction attributes with
  | nil => simp [attributesWith]
  | cons entry rest ih => simp [attributesWith, ih, attributeText_eq]

end

section

variable {attributes rest : List Attribute} {first : Attribute}

/-- A split of some attributes at the first class. -/
theorem not_isOther_of_dropWhile (split : attributes.dropWhile isOther = first :: rest) :
    first.name = "class" := by
  have stops := List.head?_dropWhile_not isOther attributes
  rw [split] at stops
  simpa [isOther] using stops

/-- If no class has a text, then a class is written without one, and is the only one when they can
be put together. -/
theorem of_classTexts_eq_nil (mergeable : Mergeable attributes)
    (none : classTexts attributes = [])
    (split : attributes.dropWhile isOther = first :: rest) :
    asWritten first = mergedClass attributes ∧ rest.filter isOther = rest := by
  have isClass := not_isOther_of_dropWhile split
  have whole : attributes = attributes.takeWhile isOther ++ first :: rest := by
    rw [← split, List.takeWhile_append_dropWhile]
  constructor
  · have among : first ∈ attributes := by
      rw [whole]
      simp
    have bare : first.value.text? = Option.none := by
      simpa using List.filterMap_eq_nil_iff.mp none first (by simp [among, isClass])
    simp [asWritten, mergedClass, none, bare, isClass]
  · have one : (attributes.filter (!isOther ·)).length ≤ 1 :=
      mergeable.resolve_left (absurd none)
    have isNone : first :: rest.filter (!isOther ·) = (first :: rest).filter (!isOther ·) := by
      simp [isOther, isClass]
    rw [whole, List.filter_append, ← isNone] at one
    have others : rest.filter (!isOther ·) = [] := by
      apply List.eq_nil_of_length_eq_zero
      simp only [List.length_append, List.length_cons] at one
      omega
    rw [List.filter_eq_self]
    simpa using others

theorem attributesText_eq (mergeable : Mergeable attributes) :
    attributesText attributes = writtenText (mergeClasses attributes) := by
  have other : ∀ entry ∈ attributes.takeWhile isOther, isOther entry :=
    fun _ => List.mem_takeWhile_imp
  have front : attributesText attributes =
      writtenText ((attributes.takeWhile isOther).map asWritten) ++
        attributesWith (classTexts attributes) false (attributes.dropWhile isOther) := by
    rw [← attributesWith_append other, List.takeWhile_append_dropWhile]
    rfl
  rw [front, mergeClasses, writtenText_append]
  cases split : attributes.dropWhile isOther with
  | nil => rfl
  | cons first rest =>
      have isClass := not_isOther_of_dropWhile split
      congr 1
      cases texts : classTexts attributes with
      | nil =>
          rcases of_classTexts_eq_nil mergeable texts split with ⟨same, only⟩
          simp only [attributesWith_nil, List.map_cons, same, only]
      | cons text others =>
          simp [attributesWith, isClass, attributesWith_true, mergedClass, texts,
            WrittenAttribute.text]

/-! ### What is written once -/

/-- The attributes that are no classes, with one class among them if there is any. -/
theorem mergeClasses_cases (attributes : List Attribute) :
    mergeClasses attributes = (attributes.filter isOther).map asWritten ∨
      ∃ front back, front ++ back = (attributes.filter isOther).map asWritten ∧
        mergeClasses attributes = front ++ mergedClass attributes :: back := by
  have others : (attributes.takeWhile isOther).filter isOther = attributes.takeWhile isOther :=
    List.filter_eq_self.mpr fun _ => List.mem_takeWhile_imp
  have whole : attributes.filter isOther =
      attributes.takeWhile isOther ++ (attributes.dropWhile isOther).filter isOther :=
    calc attributes.filter isOther
        = (attributes.takeWhile isOther ++ attributes.dropWhile isOther).filter isOther := by
          rw [List.takeWhile_append_dropWhile]
      _ = attributes.takeWhile isOther ++ (attributes.dropWhile isOther).filter isOther := by
          rw [List.filter_append, others]
  rw [mergeClasses, whole, List.map_append]
  cases split : attributes.dropWhile isOther with
  | nil =>
      left
      rfl
  | cons first rest =>
      right
      have isClass : isOther first = false := by simp [isOther, not_isOther_of_dropWhile split]
      refine ⟨_, _, ?_, rfl⟩
      rw [List.filter_cons_of_neg (by simp [isClass])]

theorem name_ne_class {entry : WrittenAttribute}
    (found : entry ∈ (attributes.filter isOther).map asWritten) : entry.name ≠ "class" := by
  rcases List.mem_map.mp found with ⟨given, member, rfl⟩
  simpa [isOther] using (List.mem_filter.mp member).2

/-- Apart from the class nothing is left out, added or moved. -/
theorem filter_mergeClasses (attributes : List Attribute) :
    (mergeClasses attributes).filter (·.name ≠ "class") =
      (attributes.filter isOther).map asWritten := by
  have others : ((attributes.filter isOther).map asWritten).filter (·.name ≠ "class") =
      (attributes.filter isOther).map asWritten :=
    List.filter_eq_self.mpr fun entry found => by simpa using name_ne_class found
  rcases mergeClasses_cases attributes with same | ⟨front, back, parts, merged⟩
  · rw [same, others]
  · rw [merged, List.filter_append, List.filter_cons_of_neg (by simp [mergedClass]),
      ← List.filter_append, parts, others]

/-- The names of all attributes but the classes are different. -/
theorem nodup_names_filter_isOther (distinct : Attribute.Distinct attributes) :
    (((attributes.filter isOther).map asWritten).map WrittenAttribute.name).Nodup := by
  rw [List.Nodup, List.map_map, List.pairwise_map]
  refine (distinct.filter isOther).imp_of_mem ?_
  intro first second firstOther _ sameIsClass same
  have noClass := (List.mem_filter.mp firstOther).2
  simp [isOther, sameIsClass same] at noClass

theorem nodup_names_mergeClasses (distinct : Attribute.Distinct attributes) :
    ((mergeClasses attributes).map WrittenAttribute.name).Nodup := by
  have others := nodup_names_filter_isOther distinct
  rcases mergeClasses_cases attributes with same | ⟨front, back, parts, merged⟩
  · rwa [same]
  · rw [merged, List.map_append, List.map_cons, List.nodup_middle, ← List.map_append, parts,
      List.nodup_cons]
    refine ⟨fun found => ?_, others⟩
    rcases List.mem_map.mp found with ⟨entry, member, isClass⟩
    exact name_ne_class member isClass

end

/-- The start tag of an element whose attributes have different names, but for the classes: no name
is written twice, all attributes but the classes are written in their order, and in the place of the
first class stand the texts of all classes, in their order and with a space between each two. -/
theorem startTag_eq {attributes : List Attribute} (distinct : Attribute.Distinct attributes)
    (mergeable : Mergeable attributes) (name : String) :
    startTag name attributes = "<" ++ name ++ writtenText (mergeClasses attributes) ++ ">" ∧
      ((mergeClasses attributes).map WrittenAttribute.name).Nodup ∧
      (mergeClasses attributes).filter (·.name ≠ "class") =
        (attributes.filter isOther).map asWritten := by
  refine ⟨?_, nodup_names_mergeClasses distinct, filter_mergeClasses attributes⟩
  rw [startTag, attributesText_eq mergeable]

/-- A class without a text in front of two with texts. -/
theorem startTag_eq_mixed :
    ∃ attributes : List Attribute,
      attributes.map (fun entry => (entry.name, entry.value)) =
        [("id", .text "x"), ("class", .present), ("class", .text "a"), ("data", .present),
          ("class", .text "b")] ∧
      Attribute.Distinct attributes ∧ Mergeable attributes ∧
      startTag "p" attributes = "<p id=\x22x\x22 class=\x22a b\x22 data>" := by
  let attributes : List Attribute :=
    [⟨{}, "id", .text "x", false⟩, ⟨{}, "class", .present, true⟩,
      ⟨{}, "class", .text "a", false⟩, ⟨{}, "data", .present, true⟩,
      ⟨{}, "class", .text "b", true⟩]
  have distinct : Attribute.Distinct attributes := by simp [Attribute.Distinct, attributes]
  have mergeable : Mergeable attributes := by
    left
    decide
  refine ⟨attributes, rfl, distinct, mergeable, ?_⟩
  rw [(startTag_eq distinct mergeable "p").1]
  decide +kernel

/-- Two classes without a text are not put together. -/
example :
    startTag "p" [⟨{}, "class", .present, true⟩, ⟨{}, "class", .present, true⟩] =
      "<p class class>" := by
  decide +kernel

end Offside.Html
