/-!
# A stream of random words

The ChaCha stream cipher with eight rounds, run on a key that a seed is expanded into. Its blocks
are numbered from zero, and the words of each block are drawn in pairs as words of 64 bits, the
lower half first.
-/

namespace Ranging

/-- The state of the generator. -/
structure ChaCha where
  key : Vector UInt32 8
  /-- The number of the next block. -/
  block : UInt64
  /-- Words of the current block that are left. -/
  left : List UInt64

namespace ChaCha

/-- The working state of one block. -/
abbrev Words := Vector UInt32 16

/-- Move the bits of a word towards the top by `n`, those that leave it entering below. -/
def rotateLeft (x n : UInt32) : UInt32 :=
  (x <<< n) ||| (x >>> (32 - n))

/-- Mix four words. -/
def quarterRound (w : Words) (i j k l : Fin 16) : Words :=
  let a := w[i]
  let b := w[j]
  let c := w[k]
  let d := w[l]
  let a := a + b
  let d := rotateLeft (d ^^^ a) 16
  let c := c + d
  let b := rotateLeft (b ^^^ c) 12
  let a := a + b
  let d := rotateLeft (d ^^^ a) 8
  let c := c + d
  let b := rotateLeft (b ^^^ c) 7
  (((w.set i a).set j b).set k c).set l d

/-- Mix the columns and then the diagonals. -/
def doubleRound (w : Words) : Words :=
  let w := quarterRound w 0 4 8 12
  let w := quarterRound w 1 5 9 13
  let w := quarterRound w 2 6 10 14
  let w := quarterRound w 3 7 11 15
  let w := quarterRound w 0 5 10 15
  let w := quarterRound w 1 6 11 12
  let w := quarterRound w 2 7 8 13
  quarterRound w 3 4 9 14

/-- The words that the rounds start from: constants, the key, and the number of the block. -/
def input (key : Vector UInt32 8) (block : UInt64) : Words :=
  #v[0x61707865, 0x3320646e, 0x79622d32, 0x6b206574,
    key[0], key[1], key[2], key[3], key[4], key[5], key[6], key[7],
    block.toUInt32, (block >>> 32).toUInt32, 0, 0]

/-- The words of a block. -/
def output (key : Vector UInt32 8) (block : UInt64) : Words :=
  let start := input key block
  let mixed := doubleRound (doubleRound (doubleRound (doubleRound start)))
  mixed.zipWith (· + ·) start

/-- Words of 32 bits joined in pairs, the lower half first. -/
def pairs : List UInt32 → List UInt64
  | low :: high :: rest => (low.toUInt64 ||| (high.toUInt64 <<< 32)) :: pairs rest
  | _ => []

/-- Draw a word. -/
def next (g : ChaCha) : UInt64 × ChaCha :=
  match g.left with
  | word :: left => (word, { g with left })
  | [] =>
    match pairs (output g.key g.block).toList with
    | word :: left => (word, { g with block := g.block + 1, left })
    | [] => (0, g)

/-- One step of the expansion of a seed. -/
def expand (s : UInt64) : UInt64 :=
  s * 6364136223846793005 + 11634580027462260723

/-- The key word that a state of the expansion gives. -/
def keyWord (s : UInt64) : UInt32 :=
  let x := (((s >>> 18) ^^^ s) >>> 27).toUInt32
  let turn := (s >>> 59).toUInt32
  (x >>> turn) ||| (x <<< (32 - turn))

/-- The first `n` key words after a state of the expansion. -/
def keyWords (s : UInt64) : Nat → List UInt32
  | 0 => []
  | n + 1 => keyWord (expand s) :: keyWords (expand s) n

/-- The generator that a seed stands for. -/
def ofSeed (seed : UInt64) : ChaCha where
  key := Vector.ofFn fun i => (keyWords seed 8).getD i 0
  block := 0
  left := []

end ChaCha

end Ranging
