import TableLineage.Decimal.Shortest
import TableLineage.Text.Shown
import TableLineage.Yaml.Event

/-!
# The values that plain scalars spell

A plain scalar spells null, a truth value, a number or a text.  Digits after a leading zero are a
text.  The tag of a scalar can ask for one of these kinds.
-/

namespace TableLineage.Yaml

/-- The value of a scalar. -/
inductive Value where
  | null
  | bool (value : Bool)
  | integer (value : Int)
  | decimal (value : Decimal)
  | text (value : String)
  deriving DecidableEq, Repr

/-! ## Spellings -/

/-- Whether a text spells null. -/
def spellsNull (text : String) : Bool :=
  ["null", "Null", "NULL", "~"].contains text

/-- The truth value that a text spells. -/
def bool? (text : String) : Option Bool :=
  if ["true", "True", "TRUE"].contains text then some true
  else if ["false", "False", "FALSE"].contains text then some false
  else none

/-- A text without one sign at its start, which is among the given ones. -/
def withoutSign (signs : List Char) : List Char → List Char
  | c :: rest => if signs.contains c then rest else c :: rest
  | [] => []

/-- Whether a text is a leading zero with digits after it, which spell no number. -/
def hasLeadingZero (text : List Char) : Bool :=
  match withoutSign ['+', '-'] text with
  | '0' :: c :: rest => (c :: rest).all Char.isDigit
  | _ => false

/-- The number that a text without sign spells in base 16, 8, 2 or 10. -/
def natural? (text : List Char) : Option Nat :=
  match text with
  | '0' :: 'x' :: digits => Text.numeral? Text.hexValue? 16 digits
  | '0' :: 'o' :: digits => Text.numeral? Text.octalValue? 8 digits
  | '0' :: 'b' :: digits => Text.numeral? Text.bitValue? 2 digits
  | _ => Text.numeral? Text.digitValue? 10 text

/-- The whole number that a text spells, of at most 128 bits. -/
def integer? (text : List Char) : Option Int :=
  if hasLeadingZero text then none
  else
    match text with
    | '-' :: rest => (natural? rest).bind fun n => if n ≤ 1 <<< 127 then some (-(n : Int)) else none
    | _ => (natural? (withoutSign ['+'] text)).bind fun n => if n < 1 <<< 128 then some n else none

/-- The exponent that a text after a number spells; it is zero without text. -/
def exponent? : List Char → Option Int
  | [] => some 0
  | c :: rest =>
    if c ≠ 'e' ∧ c ≠ 'E' then none
    else match rest with
      | '-' :: digits => (Text.numeral? Text.digitValue? 10 digits).map fun n => -(n : Int)
      | _ => (Text.numeral? Text.digitValue? 10 (withoutSign ['+'] rest)).map Int.ofNat

/-- The decimal number that a text without sign spells. -/
def unsignedDecimal? (negative : Bool) (text : List Char) : Option Decimal :=
  let whole := text.takeWhile Char.isDigit
  let rest := text.drop whole.length
  let fraction := if rest.head? = some '.' then rest.tail.takeWhile Char.isDigit else []
  let rest := if rest.head? = some '.' then rest.drop (fraction.length + 1) else rest
  match Text.numeral? Text.digitValue? 10 (whole ++ fraction), exponent? rest with
  | some digits, some exponent => some (.nearest negative digits (exponent - fraction.length))
  | _, _ => none

/-- The decimal number that a text spells. -/
def decimal? (text : List Char) : Option Decimal :=
  let word := String.ofList text
  if [".inf", ".Inf", ".INF", "+.inf", "+.Inf", "+.INF"].contains word then some (.infinite false)
  else if ["-.inf", "-.Inf", "-.INF"].contains word then some (.infinite true)
  else if [".nan", ".NaN", ".NAN"].contains word then some .notANumber
  else
    let negative := text.head? == some '-'
    match unsignedDecimal? negative (withoutSign ['+', '-'] text) with
    | some (.finite negative digits exponent) => some (.finite negative digits exponent)
    | _ => none

/-- The value that a plain scalar spells. -/
def Value.ofPlain (text : String) : Value :=
  if text = "" ∨ spellsNull text then .null
  else match bool? text with
    | some value => .bool value
    | none =>
      match integer? text.toList with
      | some value => .integer value
      | none =>
        if hasLeadingZero text.toList then .text text
        else match decimal? text.toList with
          | some value => .decimal value
          | none => .text text

/-! ## Tags -/

/-- The tag of a kind of values. -/
def kindTag (kind : String) : String :=
  "tag:yaml.org,2002:" ++ kind

/-- The tag of null. -/
def nullTag : String :=
  kindTag "null"

/-- The value of a scalar; there is none if it does not spell a value of the kind that its tag asks
for. -/
def Scalar.value? (scalar : Scalar) : Option Value :=
  match scalar.tag with
  | none => some (if scalar.isPlain then .ofPlain scalar.text else .text scalar.text)
  | some tag =>
    if tag = kindTag "bool" then (bool? scalar.text).map .bool
    else if tag = kindTag "int" then (integer? scalar.text.toList).map .integer
    else if tag = kindTag "float" then (decimal? scalar.text.toList).map .decimal
    else if tag = nullTag then if spellsNull scalar.text then some .null else none
    else if tag.toList.head? = some '!' ∧ scalar.isPlain then some (.ofPlain scalar.text)
    else some (.text scalar.text)

/-! ## Descriptions -/

/-- The words for a number, with the name of the format that holds it if it needs more than 64
bits. -/
def integerDescription (value : Int) : String :=
  let words := "integer \x60" ++ toString value ++ "\x60"
  if ((1 <<< 64 : Nat) : Int) ≤ value then words ++ " as u128"
  else if value < -((1 <<< 63 : Nat) : Int) then words ++ " as i128"
  else words

/-- The words for a value where one of another kind is needed. -/
def Value.description : Value → String
  | null => "unit value"
  | bool value => "boolean \x60" ++ toString value ++ "\x60"
  | integer value => integerDescription value
  | decimal value => "floating point \x60" ++ value.positionalText ++ "\x60"
  | text value => "string " ++ Text.quoted value

end TableLineage.Yaml
