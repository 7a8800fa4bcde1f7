import Ranging.Decimal.Shortest

/-!
# Numbers written by a user

Whole and real numbers as they are accepted on a command line. A plus sign and leading zeros are
allowed, and a real number needs a digit on one side of its point only.
-/

namespace Ranging.Text

/-- The value of a run of decimal digits, which must not be empty. -/
def digits? (text : List Char) : Option Nat :=
  if text.isEmpty || !text.all Char.isDigit then none
  else some (text.foldl (fun n c => 10 * n + (c.toNat - '0'.toNat)) 0)

/-- A whole number below `bound`. -/
def natBelow? (bound : Nat) (text : String) : Option Nat := do
  let n ← match text.toList with
    | '+' :: rest => digits? rest
    | rest => digits? rest
  guard (n < bound)
  return n

/-- The exponent that follows the letter e, with or without a sign. -/
def exponent? : List Char → Option Int
  | '-' :: rest => (digits? rest).map fun n => -(n : Int)
  | '+' :: rest => (digits? rest).map Int.ofNat
  | rest => (digits? rest).map Int.ofNat

/-- A decimal number without a sign. -/
def decimal? (text : List Char) : Option Decimal := do
  let (mantissa, rest) := text.span fun c => c ≠ 'e' && c ≠ 'E'
  let exponent ← match rest with
    | [] => some 0
    | _ :: rest => exponent? rest
  let (whole, rest) := mantissa.span (· ≠ '.')
  let fraction := rest.drop 1
  let digits ← digits? (whole ++ fraction)
  return ⟨digits, exponent - fraction.length⟩

/-- Infinity, as the largest numbers round to it. -/
def infinity (negative : Bool) : Float :=
  if negative then -1.0 / 0.0 else 1.0 / 0.0

/-- A real number without a sign: a decimal, or the name of infinity or of no number. -/
def magnitude? (negative : Bool) (text : List Char) : Option Float :=
  match String.ofList (text.map Char.toLower) with
  | "nan" => some (0.0 / 0.0)
  | "inf" | "infinity" => some (infinity negative)
  | _ => (decimal? text).map fun d => (d.toFloat? negative).getD (infinity negative)

/-- A real number. -/
def float? (text : String) : Option Float :=
  match text.toList with
  | '-' :: rest => magnitude? true rest
  | '+' :: rest => magnitude? false rest
  | rest => magnitude? false rest

end Ranging.Text
