/-!
# Decimal numerals

`toFloat` is the double nearest to `digits · 10 ^ exponent`.  `fixed` writes a
double with a fixed number of places: it takes the exact value of the double and
rounds to the nearest numeral, a tie going to the even last digit.
-/

namespace Fragboard.Decimal

def ofDigits (base : Nat) (digits : List Nat) : Nat :=
  digits.foldl (fun value digit => value * base + digit) 0

/-- The value of a digit in any base up to sixteen. -/
def digit? (character : Char) : Option Nat :=
  if character.isDigit then some (character.toNat - '0'.toNat)
  else if 'a' ≤ character ∧ character ≤ 'f' then
    some (character.toNat - 'a'.toNat + 10)
  else if 'A' ≤ character ∧ character ≤ 'F' then
    some (character.toNat - 'A'.toNat + 10)
  else none

/-- Orders of magnitude beyond which every double is zero or infinite. -/
def widestExponent : Int := 400

/-- The double nearest to `mantissa · 10 ^ exponent`. -/
def toFloat (mantissa : Nat) (exponent : Int) : Float :=
  let magnitude : Int := (Nat.toDigits 10 mantissa).length + exponent
  if mantissa = 0 ∨ magnitude < -widestExponent then 0
  else if widestExponent < magnitude then 1 / 0
  else Float.ofScientific mantissa (exponent < 0) exponent.natAbs

/-- The integer nearest to a quotient, a tie going to the even one. -/
def roundDiv (numerator denominator : Nat) : Nat :=
  let quotient := numerator / denominator
  let remainder := numerator % denominator
  if 2 * remainder < denominator then quotient
  else if denominator < 2 * remainder then quotient + 1
  else quotient + quotient % 2

/-- The exact absolute value of a finite double, as a fraction. -/
def fraction (bits : UInt64) : Nat × Nat :=
  let field := ((bits >>> 52) &&& 0x7FF).toNat
  let stored := (bits &&& 0xFFFFFFFFFFFFF).toNat
  let mantissa := if field = 0 then stored else stored + 0x10000000000000
  let exponent := max field 1
  if 1075 ≤ exponent then (mantissa <<< (exponent - 1075), 1)
  else (mantissa, 1 <<< (1075 - exponent))

def isNegative (bits : UInt64) : Bool :=
  bits >>> 63 == 1

/-- A finite double with a fixed number of places. -/
def fixed (places : Nat) (value : Float) : String :=
  let unit := Nat.pow 10 places
  let (numerator, denominator) := fraction value.toBits
  let scaled := roundDiv (numerator * unit) denominator
  let whole := toString (scaled / unit)
  let part := Nat.toDigits 10 (scaled % unit)
  let padding := List.replicate (places - part.length) '0'
  let sign := if isNegative value.toBits then "-" else ""
  let tail := if places = 0 then "" else "." ++ String.ofList (padding ++ part)
  sign ++ whole ++ tail

end Fragboard.Decimal
