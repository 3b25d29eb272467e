import Offside.Document.Basic

/-!
# Options of filters

A filter is given options by name. They are sorted by name and each name occurs once. The template
decides first; what it does not say comes from the defaults of the name that was used, and then from
the defaults of the filter that the name stands for.
-/

namespace Offside

/-- Options by name, sorted. -/
structure FilterOptions where
  entries : List (String × AttributeValue) := []
deriving DecidableEq

namespace FilterOptions

/-- The value of an option. -/
def get? (options : FilterOptions) (name : String) : Option AttributeValue :=
  options.entries.lookup name

/-- Put an entry in its place; an earlier one of the same name is replaced. -/
def insertEntry (name : String) (value : AttributeValue) :
    List (String × AttributeValue) → List (String × AttributeValue)
  | [] => [(name, value)]
  | (other, found) :: rest =>
      if name = other then (name, value) :: rest
      else if name < other then (name, value) :: (other, found) :: rest
      else (other, found) :: insertEntry name value rest

/-- Set an option. -/
def insert (options : FilterOptions) (name : String) (value : AttributeValue) : FilterOptions :=
  ⟨insertEntry name value options.entries⟩

/-- Set an option that is not set yet. -/
def insertNew (options : FilterOptions) (name : String) (value : AttributeValue) :
    FilterOptions :=
  match options.get? name with
  | some _ => options
  | none => options.insert name value

/-- The options that attributes give; of two with one name the last counts. -/
def ofAttributes (attributes : List Attribute) : FilterOptions :=
  attributes.foldl (fun options entry => options.insert entry.name entry.value) {}

/-- The options, and those of the defaults that are not set. -/
def withDefaults (options defaults : FilterOptions) : FilterOptions :=
  defaults.entries.foldl (fun options entry => options.insertNew entry.1 entry.2) options

end FilterOptions

end Offside
