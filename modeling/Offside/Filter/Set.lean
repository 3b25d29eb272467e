import Offside.Filter.Fault
import Offside.Filter.Options
import Offside.Text.Utf8

/-!
# Filters by name

A filter turns text into text. Filters are registered under names; a name may also stand for the
name of another filter, but not by way of a third name.
-/

namespace Offside

/-- A transformation of text, which may refuse with a message. -/
structure Filter where
  /-- Whether an included file is given as bytes. -/
  takesBytes : Bool
  ofText : String → FilterOptions → Except String String
  ofBytes : List UInt8 → FilterOptions → Except String String

namespace Filter

/-- A filter that works on text only. -/
def text (transform : String → FilterOptions → Except String String) : Filter where
  takesBytes := false
  ofText := transform
  ofBytes bytes := transform (Text.decodeLossy bytes)

/-- A filter that works on bytes. -/
def raw (transform : List UInt8 → FilterOptions → Except String String) : Filter where
  takesBytes := true
  ofText text := transform (Text.encode text)
  ofBytes := transform

end Filter

/-- The filters that are known, other names for them, and default options by name. -/
structure FilterSet where
  filters : List (String × Filter) := []
  aliases : List (String × String) := []
  defaults : List (String × FilterOptions) := []

namespace FilterSet

/-- Whether no filter is known. -/
def isEmpty (set : FilterSet) : Bool :=
  set.filters.isEmpty

/-- The name that a name stands for. -/
def resolve (set : FilterSet) (name : String) : Except FilterFault String :=
  match set.aliases.lookup name with
  | none => .ok name
  | some target =>
      match set.aliases.lookup target with
      | none => .ok target
      | some further => .error (.aliasChain name target further)

/-- The filter of a name, and the name it is registered under. -/
def find (set : FilterSet) (name : String) : Except FilterFault (String × Filter) :=
  match set.resolve name with
  | .error fault => .error fault
  | .ok resolved =>
      match set.filters.lookup resolved with
      | none => .error (.unknown name)
      | some filter => .ok (resolved, filter)

/-- The default options of a name. -/
def defaultsOf (set : FilterSet) (name : String) : FilterOptions :=
  (set.defaults.lookup name).getD {}

/-- The options for a use of a filter. The name of the file, when it is known, is one of them. -/
def options (set : FilterSet) (name resolved : String) (attributes : List Attribute)
    (file : Option String) : FilterOptions :=
  let given := FilterOptions.ofAttributes attributes
  let options := (given.withDefaults (set.defaultsOf name)).withDefaults (set.defaultsOf resolved)
  match file with
  | some file => options.insert "filename" (.text file)
  | none => options

end FilterSet

end Offside
