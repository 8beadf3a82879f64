import TableLineage.Sql.Cte
import TableLineage.Sql.Reference

/-!
# The catalog of models and the resolution of references

A model is a table that a file produces.  A reference means a model if its canonical name is the
model's id, or else the stem of the model's file, as long as no file with the same stem produces a
different model.  A reference with one part that names a common table expression means no table, and
anything else is an external source.
-/

namespace TableLineage.Sql

/-- The models of the files with one stem. -/
inductive StemTarget where
  | unique (id : String)
  | ambiguous
  deriving DecidableEq, Repr

/-- The ids of models and the stems of their files, all in lower case. -/
structure ModelCatalog where
  ids : List String
  stems : List (String × StemTarget)
  deriving DecidableEq, Repr

/-- What a canonical name means in a catalog. -/
inductive CatalogMatch where
  | model (id : String)
  /-- Files with this stem produce several models. -/
  | ambiguous
  | unknown
  deriving DecidableEq, Repr

/-- The stems with one more file. -/
def addStem (stem id : String) : List (String × StemTarget) → List (String × StemTarget)
  | [] => [(stem, .unique id)]
  | (known, target) :: rest =>
    if known = stem then
      (known, if target = .unique id then target else .ambiguous) :: rest
    else
      (known, target) :: addStem stem id rest

namespace ModelCatalog

/-- The catalog without models. -/
def empty : ModelCatalog :=
  ⟨[], []⟩

/-- The catalog with the model that a file produces. -/
def register (catalog : ModelCatalog) (id stem : String) : ModelCatalog where
  ids := Order.insertAscending (Text.lowercase id) catalog.ids
  stems := addStem (Text.lowercase stem) (Text.lowercase id) catalog.stems

/-- Whether an id in any letter case is a model's. -/
def contains (catalog : ModelCatalog) (id : String) : Bool :=
  catalog.ids.contains (Text.lowercase id)

/-- What a canonical name means: a model by its id, else by a stem. -/
def find (catalog : ModelCatalog) (name : String) : CatalogMatch :=
  if name ∈ catalog.ids then .model name
  else match catalog.stems.lookup name with
    | some (.unique id) => .model id
    | some .ambiguous => .ambiguous
    | none => .unknown

/-- The id of the model that a canonical name means. -/
def lookup? (catalog : ModelCatalog) (name : String) : Option String :=
  match catalog.find name with
  | .model id => some id
  | .ambiguous | .unknown => none

/-- The number of models. -/
def size (catalog : ModelCatalog) : Nat :=
  catalog.ids.length

/-- Whether there are no models. -/
def isEmpty (catalog : ModelCatalog) : Bool :=
  catalog.ids.isEmpty

end ModelCatalog

/-- What a reference means. -/
inductive Resolution where
  /-- A common table expression of the statement. -/
  | cte
  | model (id : String)
  | external (id : String)
  deriving DecidableEq, Repr

/-- The id of the table that is meant. -/
def Resolution.id? : Resolution → Option String
  | cte => none
  | model id | external id => some id

/-- What a reference means among the common table expressions of its statement and a catalog. -/
def resolve (catalog : ModelCatalog) (ctes : CteScope) (reference : TableReference) : Resolution :=
  if !reference.isQualified && ctes.contains reference.canonical then
    .cte
  else
    match catalog.lookup? reference.canonical with
    | some id => .model id
    | none => .external reference.canonical

/-- The note on the resolution of a reference, if its name is ambiguous. -/
def ambiguityNote? (catalog : ModelCatalog) (ctes : CteScope) (reference : TableReference) :
    Option String :=
  if resolve catalog ctes reference = .cte then none
  else match catalog.find reference.canonical with
    | .ambiguous =>
      some (s!"'{reference.canonical}' matches several model files by stem; " ++
        "keeping it as a source")
    | .model _ | .unknown => none

end TableLineage.Sql
