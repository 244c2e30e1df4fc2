import Chip8.Nibble
import Chip8.Numeral.Hex

/-!
The two-byte word of an instruction and its bit fields. Every field is a digit, or a
run of digits, of the word in radix sixteen.
-/

namespace Chip8

@[ext]
structure Opcode where
  word : UInt16
  deriving DecidableEq, Repr

/-- A twelve-bit address, the widest that an instruction can name. -/
abbrev Address := Fin 4096

namespace Opcode

/-- The higher byte comes first in memory. -/
def ofBytes (high low : UInt8) : Opcode :=
  { word := UInt16.ofNat (high.toNat * 256 + low.toNat) }

def ofDigits (family x y nibble : Nibble) : Opcode :=
  { word := UInt16.ofNat (family.val * 4096 + x.val * 256 + y.val * 16 + nibble.val) }

/-- The digit of a weight, which is a power of sixteen. -/
def digit (opcode : Opcode) (weight : Nat) : Nibble := Nibble.ofNat (opcode.word.toNat / weight)

def family (opcode : Opcode) : Nibble := opcode.digit 4096

def x (opcode : Opcode) : Nibble := opcode.digit 256

def y (opcode : Opcode) : Nibble := opcode.digit 16

def nibble (opcode : Opcode) : Nibble := opcode.digit 1

def byte (opcode : Opcode) : UInt8 := UInt8.ofNat (opcode.word.toNat % 256)

def address (opcode : Opcode) : Address :=
  ⟨opcode.word.toNat % 4096, Nat.mod_lt _ (by decide)⟩

def text (opcode : Opcode) : String :=
  "#" ++ Numeral.hexText 4 opcode.word.toNat

theorem family_val (opcode : Opcode) : opcode.family.val = opcode.word.toNat / 4096 := by
  have bound := opcode.word.toNat_lt
  rw [family, digit, Nibble.val_ofNat]
  omega

theorem x_val (opcode : Opcode) : opcode.x.val = opcode.word.toNat / 256 % 16 := rfl

theorem y_val (opcode : Opcode) : opcode.y.val = opcode.word.toNat / 16 % 16 := rfl

theorem nibble_val (opcode : Opcode) : opcode.nibble.val = opcode.word.toNat % 16 := by
  rw [nibble, digit, Nibble.val_ofNat, Nat.div_one]

theorem byte_toNat (opcode : Opcode) : opcode.byte.toNat = opcode.word.toNat % 256 := by
  rw [byte, UInt8.toNat_ofNat']
  omega

theorem address_val (opcode : Opcode) : opcode.address.val = opcode.word.toNat % 4096 := rfl

theorem word_ofBytes (high low : UInt8) :
    (ofBytes high low).word.toNat = high.toNat * 256 + low.toNat := by
  have highBound := high.toNat_lt
  have lowBound := low.toNat_lt
  rw [ofBytes, UInt16.toNat_ofNat']
  omega

section

variable (family x y nibble : Nibble)

theorem word_ofDigits : (ofDigits family x y nibble).word.toNat =
    family.val * 4096 + x.val * 256 + y.val * 16 + nibble.val := by
  rw [ofDigits, UInt16.toNat_ofNat']
  omega

@[simp] theorem family_ofDigits : (ofDigits family x y nibble).family = family := by
  apply Fin.ext
  rw [family_val, word_ofDigits]
  omega

@[simp] theorem x_ofDigits : (ofDigits family x y nibble).x = x := by
  apply Fin.ext
  rw [x_val, word_ofDigits]
  omega

@[simp] theorem y_ofDigits : (ofDigits family x y nibble).y = y := by
  apply Fin.ext
  rw [y_val, word_ofDigits]
  omega

@[simp] theorem nibble_ofDigits : (ofDigits family x y nibble).nibble = nibble := by
  apply Fin.ext
  rw [nibble_val, word_ofDigits]
  omega

theorem byte_ofDigits : (ofDigits family x y nibble).byte.toNat = y.val * 16 + nibble.val := by
  rw [byte_toNat, word_ofDigits]
  omega

end

end Opcode

end Chip8
