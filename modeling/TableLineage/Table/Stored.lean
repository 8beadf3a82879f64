import TableLineage.Table.Name
import TableLineage.Text.Json

/-!
# Names stored as JSON

A table's id and its name are stored as JSON strings that are not empty.
-/

namespace TableLineage

/-- Why a JSON value is not a stored name. -/
inductive StoredNameFault where
  /-- The value is not a string. -/
  | notString (value : Json)
  | empty (kind : String)

/-- The words for a JSON value of some kind; a single value is quoted. -/
def Json.description : Json → String
  | null => "null"
  | bool value => "boolean \x60" ++ toString value ++ "\x60"
  | integer value => "integer \x60" ++ toString value ++ "\x60"
  | decimal value => "floating point \x60" ++ value.exponentText ++ "\x60"
  | string value => "string " ++ quoted value
  | array _ => "sequence"
  | object _ => "map"

/-- The text of a fault. -/
def StoredNameFault.message : StoredNameFault → String
  | notString value => "invalid type: " ++ value.description ++ ", expected a string"
  | empty kind => kind ++ " must not be empty"

/-- The id that a JSON value stores. -/
def TableId.ofJson : Json → Except StoredNameFault TableId
  | .string value =>
    match TableId.ofString? value with
    | some id => .ok id
    | none => .error (.empty "TableId")
  | value => .error (.notString value)

/-- The name that a JSON value stores. -/
def TableName.ofJson : Json → Except StoredNameFault TableName
  | .string value =>
    match TableName.ofString? value with
    | some name => .ok name
    | none => .error (.empty "TableName")
  | value => .error (.notString value)

end TableLineage
