import Ranging.Random.ChaCha
import Ranging.Random.NormalTable
import Ranging.Random.Source

/-!
# Random numbers of several distributions

Numbers are made from words by writing random bits into the fraction of a binary64 number whose
exponent is fixed. Draws that may have to be repeated are bounded: each attempt succeeds with
probability one half or more, so that the bound is never met in practice.
-/

namespace Ranging.ChaCha

/-- The most attempts at one draw. -/
def attempts : Nat := 1024

/-- The distance of numbers below one: `2 ^ -53`. -/
def ulp : Float := 1.1102230246251565e-16

/-- A number from one up to two. -/
def oneToTwo (word : UInt64) : Float :=
  Float.ofBits ((0x3FF0000000000000 : UInt64) ||| (word >>> 12))

/-- A number from two up to four. -/
def twoToFour (word : UInt64) : Float :=
  Float.ofBits ((0x4000000000000000 : UInt64) ||| (word >>> 12))

/-- A number from zero up to one, a multiple of `2 ^ -53`. -/
def unit (g : ChaCha) : Float × ChaCha :=
  let (word, g) := g.next
  (Float.ofNat (word >>> 11).toNat * ulp, g)

/-- A number strictly between zero and one. -/
def openUnit (g : ChaCha) : Float × ChaCha :=
  let (word, g) := g.next
  (oneToTwo word - (1.0 - ulp), g)

/-- A number from `low` up to `high`. Rounding may reach `high`, which is drawn again. -/
def between (low high : Float) (g : ChaCha) (attempts : Nat := attempts) : Float × ChaCha :=
  let (word, g) := g.next
  let x := (oneToTwo word - 1.0) * (high - low) + low
  if x < high then (x, g)
  else
    match attempts with
    | 0 => (x, g)
    | attempts + 1 => between low high g attempts

/-- A reading of a 40-bit counter: the top bits of a word times `2 ^ 40`, unless the rest of the
product is in the upper half of its range. -/
def counter (g : ChaCha) (attempts : Nat := attempts) : UInt64 × ChaCha :=
  let (word, g) := g.next
  let product := word.toNat * 2 ^ 40
  let reading := (product / 2 ^ 64).toUInt64
  if product % 2 ^ 64 < 2 ^ 63 then (reading, g)
  else
    match attempts with
    | 0 => (reading, g)
    | attempts + 1 => counter g attempts

open NormalLayers

/-- A number from the tail of the normal distribution. -/
def tail (negative : Bool) (g : ChaCha) (attempts : Nat := attempts) : Float × ChaCha :=
  let (a, g) := g.openUnit
  let (c, g) := g.openUnit
  let x := Float.log a / tailStart
  let y := Float.log c
  let beyond := if negative then x - tailStart else tailStart - x
  if -2.0 * y < x * x then
    match attempts with
    | 0 => (beyond, g)
    | attempts + 1 => tail negative g attempts
  else (beyond, g)

/-- A number of the standard normal distribution. A layer is chosen, and a point in it: most of
the layer lies under the curve, and only a point near its edge needs a closer look. -/
def standardNormal (g : ChaCha) (attempts : Nat := attempts) : Float × ChaCha :=
  let (word, g) := g.next
  let layer := (word &&& 255).toNat
  let u := twoToFour word - 3.0
  let x := u * edges.getD layer 0.0
  if x.abs < edges.getD (layer + 1) 0.0 then (x, g)
  else if layer = 0 then tail (u < 0.0) g
  else
    let (v, g) := g.unit
    let low := heights.getD (layer + 1) 0.0
    let high := heights.getD layer 0.0
    if low + (high - low) * v < Float.exp (-x * x / 2.0) then (x, g)
    else
      match attempts with
      | 0 => (x, g)
      | attempts + 1 => standardNormal g attempts

/-- A normally distributed number with mean zero. -/
def normal (deviation : Float) (g : ChaCha) : Float × ChaCha :=
  let (z, g) := g.standardNormal
  (0.0 + deviation * z, g)

instance : NoiseSource ChaCha Float where
  seeded := ofSeed
  unit := unit
  between low high g := between low high g
  counter g := counter g
  normal := normal

end Ranging.ChaCha
