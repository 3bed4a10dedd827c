import Rehearsal.ChaCha

/-!
# Generated suffixes

Generated names end in six characters drawn from a seeded generator. The generator is a value:
drawing gives the suffix and the generator that goes on behind it, so whoever shares a generator
passes it along.
-/

namespace Rehearsal

/-- A generator of suffixes: a key, and how many words of its keystream were used. -/
structure Suffixes where
  /-- The key of the keystream. -/
  key : List UInt32
  /-- How many words were used. -/
  used : Nat
deriving DecidableEq, Inhabited

namespace Suffixes

/-- The generator of a seed. -/
def ofSeed (seed : Nat) : Suffixes := ⟨ChaCha.keyOfSeed seed.toUInt64, 0⟩

/-- The characters of a suffix before their case is folded. -/
def alphabet : List Char := "ABCDEFGHIJKLMNOPQRSTUVWXYZabcdefghijklmnopqrstuvwxyz0123456789".toList

/-- How many words in a row are looked at for one character. -/
def attempts : Nat := 1024

/-- The first of the next words whose six leading bits name a character, as that number, and the
generator behind it. -/
def pick (g : Suffixes) : Nat → Nat × Suffixes
  | 0 => (0, g)
  | n + 1 =>
    let index := (ChaCha.word g.key g.used >>> 26).toNat
    let g := { g with used := g.used + 1 }
    if index < 62 then (index, g) else g.pick n

/-- The next character and the generator behind it. -/
def nextChar (g : Suffixes) : Char × Suffixes :=
  let (index, g) := g.pick attempts
  ((alphabet.getD index 'a').toLower, g)

/-- The next `count` characters and the generator behind them. -/
def nextChars (g : Suffixes) : Nat → List Char × Suffixes
  | 0 => ([], g)
  | count + 1 =>
    let (c, g) := g.nextChar
    let (rest, g) := g.nextChars count
    (c :: rest, g)

/-- How many characters a suffix has. -/
def length : Nat := 6

/-- The next suffix and the generator behind it. -/
def next (g : Suffixes) : String × Suffixes :=
  let (chars, g) := g.nextChars length
  (String.ofList chars, g)

end Suffixes

end Rehearsal
