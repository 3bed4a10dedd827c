/-!
# The ChaCha keystream with twelve rounds

A keystream of 32-bit words: block number `n` scrambles the constants, the key and the block
number, and adds what it started from.

* `ChaCha.keyOfSeed`: stretches a 64-bit seed to a key;
* `ChaCha.word`: the words of the keystream, by position.
-/

namespace Rehearsal.ChaCha

/-- The multiplier and the increment of the generator that stretches a seed. -/
def stretchStep (state : UInt64) : UInt64 := state * 6364136223846793005 + 11634580027462260723

/-- Rotates a word to the left. -/
def rotateLeft (x : UInt32) (n : UInt32) : UInt32 := (x <<< n) ||| (x >>> (32 - n))

/-- The word that a state of the stretching generator gives. -/
def stretchWord (state : UInt64) : UInt32 :=
  let mixed := (((state >>> 18) ^^^ state) >>> 27).toUInt32
  let turn := (state >>> 59).toUInt32
  if turn = 0 then mixed else (mixed >>> turn) ||| (mixed <<< (32 - turn))

/-- The next words of a key from a state of the stretching generator. -/
def stretch (state : UInt64) : Nat → List UInt32
  | 0 => []
  | count + 1 => stretchWord (stretchStep state) :: stretch (stretchStep state) count

/-- The eight words of key that a seed stands for. -/
def keyOfSeed (seed : UInt64) : List UInt32 := stretch seed 8

/-- The state that block number `n` starts from. -/
def initial (key : List UInt32) (n : Nat) : Array UInt32 :=
  let constants : List UInt32 := [0x61707865, 0x3320646e, 0x79622d32, 0x6b206574]
  (constants ++ key ++ [n.toUInt32, (n / Nat.pow 2 32).toUInt32, 0, 0]).toArray

/-- One quarter round on the words at four places. -/
def quarterRound (s : Array UInt32) (i j k l : Nat) : Array UInt32 :=
  let a := s.getD i 0
  let b := s.getD j 0
  let c := s.getD k 0
  let d := s.getD l 0
  let a := a + b
  let d := rotateLeft (d ^^^ a) 16
  let c := c + d
  let b := rotateLeft (b ^^^ c) 12
  let a := a + b
  let d := rotateLeft (d ^^^ a) 8
  let c := c + d
  let b := rotateLeft (b ^^^ c) 7
  (((s.setIfInBounds i a).setIfInBounds j b).setIfInBounds k c).setIfInBounds l d

/-- A round down the columns and one along the diagonals. -/
def doubleRound (s : Array UInt32) : Array UInt32 :=
  [(0, 4, 8, 12), (1, 5, 9, 13), (2, 6, 10, 14), (3, 7, 11, 15),
    (0, 5, 10, 15), (1, 6, 11, 12), (2, 7, 8, 13), (3, 4, 9, 14)].foldl
    (fun s (i, j, k, l) => quarterRound s i j k l) s

/-- The sixteen words of block number `n`. -/
def block (key : List UInt32) (n : Nat) : Array UInt32 :=
  let start := initial key n
  let scrambled := (List.range 6).foldl (fun s _ => doubleRound s) start
  scrambled.zipWith (· + ·) start

/-- Word number `position` of the keystream. -/
def word (key : List UInt32) (position : Nat) : UInt32 :=
  (block key (position / 16)).getD (position % 16) 0

end Rehearsal.ChaCha
