/-!
# Decimals and their texts

A decimal is a sign, a whole number without trailing zeros and a power of ten, or one of the values
that are no numbers.  Two texts are in use: one that never has an exponent, and one that has an
exponent where many zeros would be written.

Numbers are held in binary with 53 bits.  `Decimal.nearest` rounds a decimal number to such a binary
fraction, a tie going to the even one, and returns the fewest digits that round to the same
fraction; among those with equally few digits, the nearest.  All arithmetic is exact.
-/

namespace TableLineage

/-! ## Decimals -/

/-- A number in decimal digits. -/
inductive Decimal where
  /-- The number `digits * 10 ^ exponent`, or its negative. -/
  | finite (negative : Bool) (digits : Nat) (exponent : Int)
  | infinite (negative : Bool)
  | notANumber
  deriving DecidableEq, Repr

namespace Decimal

/-- The sign of a number. -/
def signText (negative : Bool) : String :=
  if negative then "-" else ""

/-- A run of zeros. -/
def zeros (count : Nat) : String :=
  String.ofList (List.replicate count '0')

/-- The digits with a point in or around them, and at least one digit on either side of it. -/
def pointText (digits : Nat) (exponent : Int) : String :=
  let written := toString digits
  let whole : Int := written.length + exponent
  if 0 ≤ exponent then
    written ++ zeros exponent.toNat ++ ".0"
  else if 0 < whole then
    String.ofList (written.toList.take whole.toNat) ++ "." ++
      String.ofList (written.toList.drop whole.toNat)
  else
    "0." ++ zeros (-whole).toNat ++ written

/-- The text without an exponent. -/
def positionalText : Decimal → String
  | finite negative 0 _ => signText negative ++ "0.0"
  | finite negative digits exponent => signText negative ++ pointText digits exponent
  | infinite negative => signText negative ++ "inf"
  | notANumber => "NaN"

/-- The text with an exponent below `10 ^ -5` and from `10 ^ 16` on. -/
def exponentText : Decimal → String
  | finite negative 0 _ => signText negative ++ "0.0"
  | finite negative digits exponent =>
    let written := (toString digits).toList
    let whole : Int := written.length + exponent
    if -5 < whole ∧ whole ≤ 16 then
      signText negative ++ pointText digits exponent
    else
      let fraction := if written.length = 1 then "" else "." ++ String.ofList written.tail
      signText negative ++ String.ofList (written.take 1) ++ fraction ++ "e" ++ toString (whole - 1)
  | infinite negative => signText negative ++ "inf"
  | notANumber => "NaN"

/-! ## The shortest decimal of a binary fraction -/

/-- A positive number `numerator / denominator`. -/
structure Ratio where
  numerator : Nat
  denominator : Nat

/-- The number `n * base ^ exponent` for a base of at least one. -/
def Ratio.power (n base : Nat) (exponent : Int) : Ratio :=
  ⟨n * base.pow exponent.toNat, base.pow (-exponent).toNat⟩

/-- Whether one number is less than another. -/
def Ratio.less (a b : Ratio) : Bool :=
  decide (a.numerator * b.denominator < b.numerator * a.denominator)

/-- The whole number nearest to `a / base ^ exponent`, a tie going to the even one. -/
def Ratio.roundTo (a : Ratio) (base : Nat) (exponent : Int) : Nat :=
  let unit := Ratio.power 1 base exponent
  let n := a.numerator * unit.denominator
  let d := a.denominator * unit.numerator
  let low := n / d
  let twice := 2 * (n % d)
  if twice < d ∨ (twice = d ∧ low % 2 = 0) then low else low + 1

/-- The whole part of `a / base ^ exponent`. -/
def Ratio.floorTo (a : Ratio) (base : Nat) (exponent : Int) : Nat :=
  let unit := Ratio.power 1 base exponent
  (a.numerator * unit.denominator) / (a.denominator * unit.numerator)

/-- A binary fraction `mantissa * 2 ^ exponent`. -/
structure Binary where
  mantissa : Nat
  exponent : Int

/-- The exponent of the last of 53 bits of a number, at least `-1074`. -/
def binaryExponent (a : Ratio) : Int :=
  let guess : Int := (Nat.log2 a.numerator : Int) - Nat.log2 a.denominator - 52
  let exponent := if a.floorTo 2 guess < 1 <<< 52 then guess - 1 else guess
  max exponent (-1074)

/-- The binary fraction nearest to a number. -/
def Binary.nearest (a : Ratio) : Binary :=
  let exponent := binaryExponent a
  ⟨a.roundTo 2 exponent, exponent⟩

/-- The exponent of the first decimal digit of a number that is at least `10 ^ -400`. -/
def leadingExponent (a : Ratio) : Int :=
  if a.denominator ≤ a.numerator then
    ((toString (a.numerator / a.denominator)).length : Int) - 1
  else
    match (List.range 400).find? fun t => decide (a.denominator ≤ a.numerator * Nat.pow 10 t) with
    | some t => -(t : Int)
    | none => -400

/-- Whether a number rounds to a binary fraction. -/
def Binary.isNear (b : Binary) (a : Ratio) : Bool :=
  let quarters := 4 * b.mantissa
  let below := if b.mantissa = 1 <<< 52 ∧ -1074 < b.exponent then quarters - 1 else quarters - 2
  let low := Ratio.power below 2 (b.exponent - 2)
  let high := Ratio.power (quarters + 2) 2 (b.exponent - 2)
  if b.mantissa % 2 = 0 then !a.less low && !high.less a else low.less a && a.less high

/-- The multiple of `10 ^ exponent` that is nearest to a binary fraction, if one rounds to it. -/
def Binary.onGrid? (b : Binary) (exponent : Int) : Option Nat :=
  let value := Ratio.power b.mantissa 2 b.exponent
  let low := value.floorTo 10 exponent
  let lowNear := b.isNear (.power low 10 exponent)
  let highNear := b.isNear (.power (low + 1) 10 exponent)
  if lowNear && highNear then some (value.roundTo 10 exponent)
  else if lowNear then some low
  else if highNear then some (low + 1)
  else none

/-- The number without trailing zeros, and the exponent that makes up for them; at most `fuel` zeros
are taken off. -/
def stripZeros : Nat → Nat → Int → Nat × Int
  | 0, digits, exponent => (digits, exponent)
  | fuel + 1, digits, exponent =>
    if digits ≠ 0 ∧ digits % 10 = 0 then stripZeros fuel (digits / 10) (exponent + 1)
    else (digits, exponent)

/-- The shortest decimal of a positive binary fraction. -/
def Binary.shortest (b : Binary) : Nat × Int :=
  let first := leadingExponent (.power b.mantissa 2 b.exponent)
  let grids := (List.range 17).map fun (more : Nat) => first - (more : Int)
  match grids.findSome? fun exponent =>
      (b.onGrid? exponent).map fun digits => (digits, exponent) with
  | some (digits, exponent) => stripZeros 20 digits exponent
  | none => (b.mantissa, 0)

/-- The shortest decimal that rounds to the same binary fraction as `digits * 10 ^ exponent`. -/
def nearest (negative : Bool) (digits : Nat) (exponent : Int) : Decimal :=
  if digits = 0 ∨ exponent + (toString digits).length < -330 then
    finite negative 0 0
  else if 400 < exponent + (toString digits).length then
    infinite negative
  else
    let b := Binary.nearest (.power digits 10 exponent)
    if b.mantissa = 0 then
      finite negative 0 0
    else if (Ratio.power 1 2 1024).less (.power (b.mantissa + 1) 2 b.exponent) ∨
        b.mantissa = 1 <<< 53 ∧ b.exponent = 971 then
      infinite negative
    else
      let (digits, exponent) := b.shortest
      finite negative digits exponent

end Decimal

end TableLineage
