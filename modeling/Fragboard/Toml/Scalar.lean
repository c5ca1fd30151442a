import Fragboard.Decimal
import Fragboard.Toml.Quoted
import Fragboard.Toml.Value

/-!
# Scalar values

Numbers, truth values, moments in time and quoted text.
-/

namespace Fragboard.Toml.Scalar

open Scan

/-- Digits, with single underscores between them. -/
def digits (belongs : Char → Bool) : Scan (List Char) := do
  let first ← someRun belongs
  let others ← many (exactly "_" *> someRun belongs)
  pure (first ++ others.flatten)

/-- The number that characters of a base spell. -/
def number (base : Nat) (characters : List Char) : Nat :=
  Decimal.ofDigits base (characters.filterMap Decimal.digit?)

def sign : Scan Bool :=
  (exactly "-" *> pure true) <|> (exactly "+" *> pure false) <|> pure false

/-- Decimal digits without a leading zero, apart from zero itself. -/
def wholeDigits : Scan (List Char) := do
  match ← peek? with
  | some '0' => exactly "0" *> pure ['0']
  | _ => digits Char.isDigit

def bounded (value : Int) : Scan Value :=
  if -9223372036854775808 ≤ value ∧ value ≤ 9223372036854775807 then
    pure (.integer value)
  else
    fail

def isDigitBelow (base : Nat) (character : Char) : Bool :=
  (Decimal.digit? character).any (· < base)

/-- An integer to another base, after its mark. -/
def based (mark : String) (base : Nat) : Scan Value := do
  exactly mark
  let found ← digits (isDigitBelow base)
  bounded (number base found)

def decimalInteger : Scan Value := do
  let negative ← sign
  let found ← wholeDigits
  let value : Int := number 10 found
  bounded (if negative then -value else value)

def integer : Scan Value :=
  based "0x" 16 <|> based "0o" 8 <|> based "0b" 2 <|> decimalInteger

/-- The exponent of a decimal. -/
def exponent : Scan Int := do
  discard (oneOf fun character => character == 'e' || character == 'E')
  let negative ← sign
  let found ← digits Char.isDigit
  let value : Int := number 10 found
  pure (if negative then -value else value)

/-- The places after the point, and the exponent. -/
def scale : Scan (List Char × Int) :=
  (do
    exactly "."
    let places ← digits Char.isDigit
    let shift ← optional exponent
    pure (places, shift.getD 0)) <|>
  (do
    let shift ← exponent
    pure ([], shift))

/-- A decimal with a fraction or an exponent.  One above all doubles is
refused; one below all doubles is minus infinity. -/
def decimal : Scan Value := do
  let negative ← sign
  let whole ← wholeDigits
  let (places, shift) ← scale
  let size := Decimal.toFloat (number 10 (whole ++ places)) (shift - places.length)
  if negative then pure (.float (-size))
  else if size.isInf then fail
  else pure (.float size)

/-- An infinity or a value that is not a number. -/
def exceptional : Scan Value := do
  let negative ← sign
  let size : Float ← (exactly "inf" *> pure (1 / 0)) <|>
    (exactly "nan" *> pure (0 / 0))
  pure (.float (if negative then -size else size))

def boolean : Scan Value :=
  (exactly "true" *> pure (.boolean true)) <|>
    (exactly "false" *> pure (.boolean false))

/-- A number of a fixed count of digits within bounds. -/
def numeral (count low high : Nat) : Scan Nat := do
  let found ← Scan.count Char.isDigit count
  let value := number 10 found
  if low ≤ value ∧ value ≤ high then pure value else fail

def isLeapYear (year : Nat) : Bool :=
  year % 4 == 0 && (year % 100 != 0 || year % 400 == 0)

def daysOfMonth (year month : Nat) : Nat :=
  if month = 2 then if isLeapYear year then 29 else 28
  else if month = 4 ∨ month = 6 ∨ month = 9 ∨ month = 11 then 30
  else 31

def date : Scan Unit := do
  let year ← numeral 4 0 9999
  exactly "-"
  let month ← numeral 2 1 12
  exactly "-"
  discard (numeral 2 1 (daysOfMonth year month))

def clock : Scan Unit := do
  discard (numeral 2 0 23)
  exactly ":"
  discard (numeral 2 0 59)
  exactly ":"
  discard (numeral 2 0 60)
  discard (optional (exactly "." *> someRun Char.isDigit))

def zone : Scan Unit :=
  exactly "Z" <|> exactly "z" <|> do
    discard (oneOf fun character => character == '+' || character == '-')
    discard (numeral 2 0 23)
    exactly ":"
    discard (numeral 2 0 59)

def moment : Scan Value :=
  (do
    date
    discard (optional do
      discard (oneOf fun character =>
        character == 'T' || character == 't' || character == ' ')
      clock
      discard (optional zone))
    pure .moment) <|>
  (clock *> pure .moment)

def value : Scan Value :=
  Value.string <$> Quoted.text <|> boolean <|> moment <|> decimal <|>
    exceptional <|> integer

end Fragboard.Toml.Scalar
