/-!
An endless supply of random bytes and the number of them that have been used. The
machine takes a byte for every random number that a program asks for.
-/

namespace Chip8

@[ext]
structure Entropy where
  bytes : Nat → UInt8
  used : Nat

namespace Entropy

def next (entropy : Entropy) : UInt8 := entropy.bytes entropy.used

def advance (entropy : Entropy) : Entropy := { entropy with used := entropy.used + 1 }

def scramble (word : UInt64) : UInt64 :=
  let first := (word ^^^ (word >>> 30)) * 0xBF58476D1CE4E5B9
  let second := (first ^^^ (first >>> 27)) * 0x94D049BB133111EB
  second ^^^ (second >>> 31)

/-- The byte at a position depends on the seed and the position alone. -/
def seeded (seed : UInt64) : Entropy :=
  { bytes := fun position =>
      (scramble (seed + (UInt64.ofNat position + 1) * 0x9E3779B97F4A7C15)).toUInt8
    used := 0 }

end Entropy

end Chip8
