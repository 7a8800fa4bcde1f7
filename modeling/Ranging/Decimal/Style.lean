import Ranging.Decimal.Shortest

/-!
# Written forms of numbers

A style says how the shortest digits of a number are laid out. Messages and documents use
different styles, and both are values here rather than functions of their own.
-/

namespace Ranging

/-- How a number is written. -/
structure NumberStyle where
  /-- The powers of ten of the leading digit for which no exponent is written. -/
  positional : Int → Bool
  /-- A whole number is written with a zero after the point. -/
  pointZero : Bool
  /-- Where a tie between two shortest decimals goes. -/
  tie : Tie
  nan : String
  infinity : String
  negativeInfinity : String

namespace Decimal

/-- The digits of a number as text. -/
def digitText (d : Decimal) : List Char :=
  Nat.toDigits 10 d.digits

/-- The power of ten of the leading digit. -/
def leading (d : Decimal) : Int :=
  d.exponent + (width d.digits - 1 : Nat)

/-- Digits with a point at its place and without an exponent. -/
def positionalText (pointZero : Bool) (d : Decimal) : List Char :=
  let digits := d.digitText
  if 0 ≤ d.exponent then
    digits ++ List.replicate d.exponent.toNat '0' ++ (if pointZero then ['.', '0'] else [])
  else
    let places := (-d.exponent).toNat
    let padded := List.replicate (places + 1 - digits.length) '0' ++ digits
    padded.take (padded.length - places) ++ '.' :: padded.drop (padded.length - places)

/-- One digit before the point, and an exponent that always has a sign. -/
def exponentText (d : Decimal) : List Char :=
  let mantissa := match d.digitText with
    | first :: second :: rest => first :: '.' :: second :: rest
    | digits => digits
  let sign := if d.leading < 0 then '-' else '+'
  mantissa ++ 'e' :: sign :: Nat.toDigits 10 d.leading.natAbs

end Decimal

namespace NumberStyle

/-- Messages never use an exponent and write a whole number without a point. -/
def message : NumberStyle where
  positional _ := true
  pointZero := false
  tie := .up
  nan := "NaN"
  infinity := "inf"
  negativeInfinity := "-inf"

/-- Documents always have a point or an exponent, and no number for what is not finite. The
argument is the greatest and least power of ten that is written without an exponent. -/
def document (least greatest : Int) : NumberStyle where
  positional leading := least ≤ leading && leading ≤ greatest
  pointZero := true
  tie := .even
  nan := "null"
  infinity := "null"
  negativeInfinity := "null"

/-- Write a number of a format. -/
def write (style : NumberStyle) (f : BinaryFormat) : Binary → String
  | .nan => style.nan
  | .infinite negative => if negative then style.negativeInfinity else style.infinity
  | .finite negative d =>
    let decimal : Decimal := if d.significand = 0 then ⟨0, 0⟩ else .shortest style.tie f d
    let text :=
      if style.positional decimal.leading then decimal.positionalText style.pointZero
      else decimal.exponentText
    String.ofList (if negative then '-' :: text else text)

end NumberStyle

/-- A number as messages show it. -/
def messageNumber (x : Float) : String :=
  NumberStyle.message.write .binary64 (.ofFloat x)

/-- A binary64 number as documents hold it. -/
def documentNumber (x : Float) : String :=
  (NumberStyle.document (-5) 15).write .binary64 (.ofFloat x)

/-- A binary32 number as documents hold it. -/
def documentNumber32 (x : Float32) : String :=
  (NumberStyle.document (-6) 12).write .binary32 (.ofFloat32 x)

/-- A number with a fixed count of places, rounded to nearest, a tie going to the even digit. -/
def fixedNumber (places : Nat) (x : Float) : String :=
  match Binary.ofFloat x with
  | .finite negative d =>
    let digits := roundDiv .even (d.significand * Nat.pow 10 places * Nat.pow 2 d.exponent.toNat)
      (Nat.pow 2 (-d.exponent).toNat)
    let whole := Nat.toDigits 10 (digits / Nat.pow 10 places)
    let fraction := Nat.toDigits 10 (digits % Nat.pow 10 places)
    let text := whole ++ (if places = 0 then []
      else '.' :: (List.replicate (places - fraction.length) '0' ++ fraction))
    String.ofList (if negative then '-' :: text else text)
  | special => NumberStyle.message.write .binary64 special

end Ranging
