import TableLineage.File.Path
import TableLineage.Table.Name

/-!
# Naming tables after files

Every file produces one table.  By default the table is named after the stem of the file, with a
schema in front if one is configured; names that are configured for single files come first.
-/

namespace TableLineage

/-- The name of the table that a file produces, by the file's path in the SQL folder.  A file may
have no name that can be used. -/
abbrev TableNaming := Path → Option TableName

/-- Names made from file stems, and names given to single files. -/
structure StemNaming where
  schema : Option String
  /-- The names given to files, the last given first. -/
  given : List (String × String)
  deriving DecidableEq, Repr

namespace StemNaming

/-- Names made from file stems only. -/
def plain : StemNaming :=
  ⟨none, []⟩

/-- The naming that puts a schema in front of file stems. -/
def withSchema (naming : StemNaming) (schema : String) : StemNaming :=
  { naming with schema := some schema }

/-- The naming in which a file has a given name. -/
def withName (naming : StemNaming) (path table : String) : StemNaming :=
  { naming with given := (Path.key path, table) :: naming.given }

/-- The table that a file produces. -/
def tableFor (naming : StemNaming) : TableNaming := fun path =>
  match naming.given.lookup (Path.key path.text) with
  | some table => TableName.ofString? table
  | none =>
    path.stem?.bind fun stem =>
      if stem = "" then none
      else
        match naming.schema with
        | some schema => TableName.ofString? (schema ++ "." ++ stem)
        | none => TableName.ofString? stem

end StemNaming

end TableLineage
