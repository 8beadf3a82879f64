import TableLineage.Text.Classes
import TableLineage.Text.Lowercase
import TableLineage.Text.Search

/-!
# Table names and ids

A table is known by its id: the parts of its dotted name in lower case, without quotes and outer
blanks.  Two names of the same table in different case or quoting have the same id.  The name that a
table was first given is kept for display.
-/

namespace TableLineage

namespace Table

/-! ## Canonical names -/

/-- The parts in lower case and without outer blanks, joined by dots; empty parts are left out. -/
def canonicalName (parts : List String) : String :=
  ".".intercalate ((parts.map fun part => Text.lowercase (Text.trim part)).filter (· != ""))

/-- The character that closes a quoted part of a dotted name, if `c` opens one. -/
def closingFor? (c : Char) : Option Char :=
  if c = '"' then some '"'
  else if c = '\x60' then some '\x60'
  else if c = '[' then some ']'
  else none

/-- The parts of dotted text.  `closing` is the character that closes the quote the text starts in,
`part` holds the characters of the current part, last first.  Blanks outside quotes are left out. -/
def splitFrom (closing : Option Char) (part : List Char) : List Char → List String
  | [] => [String.ofList part.reverse]
  | c :: rest =>
    match closing with
    | some close =>
      if c = close then splitFrom none part rest else splitFrom closing (c :: part) rest
    | none =>
      match closingFor? c with
      | some close => splitFrom (some close) part rest
      | none =>
        if c = '.' then String.ofList part.reverse :: splitFrom none [] rest
        else if Text.isBlank c then splitFrom none part rest
        else splitFrom none (c :: part) rest

/-- The parts of a dotted name without their quotes.  A dot between quotes belongs to its part. -/
def splitName (name : String) : List String :=
  splitFrom none [] name.toList

end Table

/-! ## Ids and names -/

/-- The key of a table: its canonical name, which is not empty. -/
structure TableId where
  value : String
  nonempty : value ≠ ""
  deriving DecidableEq, Repr

/-- A table's name as first written, which is not empty. -/
structure TableName where
  value : String
  nonempty : value ≠ ""
  deriving DecidableEq, Repr

/-- Ids are ordered like their texts. -/
instance : LT TableId := ⟨fun a b => a.value < b.value⟩

instance : DecidableLT TableId := fun a b => inferInstanceAs (Decidable (a.value < b.value))

instance : Trans (α := TableId) (· < ·) (· < ·) (· < ·) where
  trans := String.lt_trans

instance : Std.Trichotomous (α := TableId) (· < ·) where
  trichotomous
    | ⟨a, _⟩, ⟨b, _⟩, hab, hba => by
      have h : a = b := Std.Trichotomous.trichotomous (r := (· < ·)) a b hab hba
      subst h
      rfl

/-- An empty text where the name of the given kind is needed. -/
structure EmptyName where
  kind : String
  deriving DecidableEq, Repr

/-- The text of the error. -/
def EmptyName.message (error : EmptyName) : String :=
  s!"[E005] Empty name: {error.kind}"

namespace TableId

/-- The id with a given text; there is none without text. -/
def ofString? (value : String) : Option TableId :=
  if h : value = "" then none else some ⟨value, h⟩

/-- The id with a given text, or the error that there is none. -/
def ofString (value : String) : Except EmptyName TableId :=
  match ofString? value with
  | some id => .ok id
  | none => .error ⟨"TableId"⟩

/-- The id of a dotted name; a name of quotes and blanks only has none. -/
def canonical? (name : String) : Option TableId :=
  ofString? (Table.canonicalName (Table.splitName name))

end TableId

namespace TableName

/-- The name with a given text; there is none without text. -/
def ofString? (value : String) : Option TableName :=
  if h : value = "" then none else some ⟨value, h⟩

/-- The name with a given text, or the error that there is none. -/
def ofString (value : String) : Except EmptyName TableName :=
  match ofString? value with
  | some name => .ok name
  | none => .error ⟨"TableName"⟩

/-- The id of the table of this name. -/
def id? (name : TableName) : Option TableId :=
  TableId.canonical? name.value

end TableName

end TableLineage
