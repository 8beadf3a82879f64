/-!
# Numbers in digits

The values of octal and hexadecimal digits, and the numbers that digits write.
-/

namespace TableLineage.Text

/-- The digits of a number in base 16, in lower case. -/
def hexText (n : Nat) : String :=
  String.ofList (Nat.toDigits 16 n)

/-- The value of a decimal digit. -/
def digitValue? (c : Char) : Option Nat :=
  if c.isDigit then some (c.toNat - '0'.toNat) else none

/-- The value of a hexadecimal digit. -/
def hexValue? (c : Char) : Option Nat :=
  if c.isDigit then some (c.toNat - '0'.toNat)
  else if 'a' ≤ c ∧ c ≤ 'f' then some (c.toNat - 'a'.toNat + 10)
  else if 'A' ≤ c ∧ c ≤ 'F' then some (c.toNat - 'A'.toNat + 10)
  else none

/-- The value of an octal digit. -/
def octalValue? (c : Char) : Option Nat :=
  if '0' ≤ c ∧ c ≤ '7' then some (c.toNat - '0'.toNat) else none

/-- The value of a binary digit. -/
def bitValue? (c : Char) : Option Nat :=
  if c = '0' then some 0 else if c = '1' then some 1 else none

/-- The longest start of the text, of at most `limit` characters, that has digit values. -/
def digitsOf (value? : Char → Option Nat) (limit : Nat) (text : List Char) : List Nat :=
  ((text.take limit).map value?).takeWhile Option.isSome |>.filterMap id

/-- The number that digits write in a base. -/
def numberOf (base : Nat) (digits : List Nat) : Nat :=
  digits.foldl (fun n digit => n * base + digit) 0

/-- The number that a text of one or more digits writes in a base. -/
def numeral? (value? : Char → Option Nat) (base : Nat) (text : List Char) : Option Nat :=
  let digits := digitsOf value? text.length text
  if text ≠ [] ∧ digits.length = text.length then some (numberOf base digits) else none

/-- Whether a number is the code point of a character. -/
def isCodePoint (n : Nat) : Bool :=
  decide (n < 0xD800 ∨ (0xDFFF < n ∧ n < 0x110000))

end TableLineage.Text
