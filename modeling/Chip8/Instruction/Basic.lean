import Chip8.Opcode

/-!
The canonical instruction set as data. Sub-operations that an opcode selects by a
code of their own come with that code, and are found again by it.
-/

namespace Chip8

abbrev Register := Nibble

def Register.name (register : Register) : String :=
  "V" ++ Numeral.hexText 1 register.val

/-- The register that offsets jumps. -/
def Register.base : Register := Nibble.ofNat 0

/-- The carry and collision register. -/
def Register.flag : Register := Nibble.ofNat 15

inductive Operand
  | register (source : Register)
  | immediate (value : UInt8)
  deriving DecidableEq, Repr

/-! ### Register arithmetic -/

inductive Arithmetic
  | copy
  | bitOr
  | bitAnd
  | bitXor
  | add
  | subtract
  | shiftRight
  | subtractFrom
  | shiftLeft
  deriving DecidableEq, Repr

def Arithmetic.code : Arithmetic → Nat
  | .copy => 0x0
  | .bitOr => 0x1
  | .bitAnd => 0x2
  | .bitXor => 0x3
  | .add => 0x4
  | .subtract => 0x5
  | .shiftRight => 0x6
  | .subtractFrom => 0x7
  | .shiftLeft => 0xE

def Arithmetic.all : List Arithmetic :=
  [.copy, .bitOr, .bitAnd, .bitXor, .add, .subtract, .shiftRight, .subtractFrom, .shiftLeft]

def Arithmetic.ofCode? (code : Nat) : Option Arithmetic :=
  Arithmetic.all.find? fun operation => operation.code == code

theorem Arithmetic.ofCode?_eq_some_iff {code : Nat} {operation : Arithmetic} :
    Arithmetic.ofCode? code = some operation ↔ operation.code = code := by
  constructor
  · intro found
    rw [Arithmetic.ofCode?] at found
    simpa using List.find?_some found
  · intro same
    subst same
    cases operation <;> rfl

/-! ### Timers, keypad and memory -/

inductive Auxiliary
  | readDelay
  | awaitKey
  | setDelay
  | setSound
  | addIndex
  | pointGlyph
  | storeDecimal
  | saveRegisters
  | restoreRegisters
  deriving DecidableEq, Repr

def Auxiliary.code : Auxiliary → Nat
  | .readDelay => 0x07
  | .awaitKey => 0x0A
  | .setDelay => 0x15
  | .setSound => 0x18
  | .addIndex => 0x1E
  | .pointGlyph => 0x29
  | .storeDecimal => 0x33
  | .saveRegisters => 0x55
  | .restoreRegisters => 0x65

def Auxiliary.all : List Auxiliary :=
  [.readDelay, .awaitKey, .setDelay, .setSound, .addIndex, .pointGlyph, .storeDecimal,
    .saveRegisters, .restoreRegisters]

def Auxiliary.ofCode? (code : Nat) : Option Auxiliary :=
  Auxiliary.all.find? fun operation => operation.code == code

theorem Auxiliary.ofCode?_eq_some_iff {code : Nat} {operation : Auxiliary} :
    Auxiliary.ofCode? code = some operation ↔ operation.code = code := by
  constructor
  · intro found
    rw [Auxiliary.ofCode?] at found
    simpa using List.find?_some found
  · intro same
    subst same
    cases operation <;> rfl

/-! ### Instructions -/

inductive Instruction
  | callSystem (target : Address)
  | clearScreen
  | leave
  | jump (target : Address)
  | call (target : Address)
  | skipIfEqual (x : Register) (operand : Operand)
  | skipUnlessEqual (x : Register) (operand : Operand)
  | load (x : Register) (value : UInt8)
  | addImmediate (x : Register) (value : UInt8)
  | arithmetic (operation : Arithmetic) (x y : Register)
  | loadIndex (target : Address)
  | jumpOffset (base : Address)
  | random (x : Register) (mask : UInt8)
  | draw (x y : Register) (height : Nibble)
  | skipOnKey (x : Register) (down : Bool)
  | auxiliary (operation : Auxiliary) (x : Register)
  deriving DecidableEq, Repr

end Chip8
