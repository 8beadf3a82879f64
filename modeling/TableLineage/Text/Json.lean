import TableLineage.Decimal.Shortest

/-!
# JSON values

The values of JSON and their text with one entry per line, indented by two spaces per level.
-/

namespace TableLineage

/-- A JSON value.  The entries of an object are in the order in which they are written. -/
inductive Json where
  | null
  | bool (value : Bool)
  | integer (value : Int)
  | decimal (value : Decimal)
  | string (value : String)
  | array (items : List Json)
  | object (entries : List (String × Json))
  deriving Inhabited

namespace Json

/-- The digits of a byte in base 16. -/
def hexDigits (n : Nat) : List Char :=
  [Nat.digitChar (n / 16 % 16), Nat.digitChar (n % 16)]

/-- The characters that stand for one between quotes. -/
def escaped (c : Char) : List Char :=
  if c = '"' then ['\\', '"']
  else if c = '\\' then ['\\', '\\']
  else if c = '\n' then ['\\', 'n']
  else if c = '\r' then ['\\', 'r']
  else if c = '\t' then ['\\', 't']
  else if c.toNat = 8 then ['\\', 'b']
  else if c.toNat = 12 then ['\\', 'f']
  else if c.toNat < 32 then ['\\', 'u', '0', '0'] ++ hexDigits c.toNat
  else [c]

/-- A text between quotes. -/
def quoted (text : String) : String :=
  "\"" ++ String.ofList (text.toList.flatMap escaped) ++ "\""

/-- The start of a line at a level. -/
def newline (level : Nat) : String :=
  "\n" ++ String.ofList (List.replicate (2 * level) ' ')

mutual

/-- The text of a value that starts on a line at a level. -/
def prettyAt (level : Nat) : Json → String
  | null => "null"
  | bool value => toString value
  | integer value => toString value
  | decimal value => value.exponentText
  | string value => quoted value
  | array [] => "[]"
  | array (item :: items) =>
    "[" ++ newline (level + 1) ++ prettyAt (level + 1) item ++ prettyItems (level + 1) items ++
      newline level ++ "]"
  | object [] => "\x7b\x7d"
  | object ((key, value) :: entries) =>
    "\x7b" ++ newline (level + 1) ++ quoted key ++ ": " ++ prettyAt (level + 1) value ++
      prettyEntries (level + 1) entries ++ newline level ++ "\x7d"

/-- The text of the further items of an array. -/
def prettyItems (level : Nat) : List Json → String
  | [] => ""
  | item :: items => "," ++ newline level ++ prettyAt level item ++ prettyItems level items

/-- The text of the further entries of an object. -/
def prettyEntries (level : Nat) : List (String × Json) → String
  | [] => ""
  | (key, value) :: entries =>
    "," ++ newline level ++ quoted key ++ ": " ++ prettyAt level value ++
      prettyEntries level entries

end

/-- The text of a value. -/
def pretty (value : Json) : String :=
  prettyAt 0 value

end Json

end TableLineage
