import Chip8.Fault
import Chip8.Instruction.Basic

/-!
Reading the instruction off an opcode. The family selects a form; the forms with
sub-operations refuse the codes that name none.
-/

namespace Chip8.Instruction

/-- Family zero holds two complete words and otherwise a system call. -/
def ofSystemWord (opcode : Opcode) : Instruction :=
  if opcode.word = 0x00E0 then .clearScreen
  else if opcode.word = 0x00EE then .leave
  else .callSystem opcode.address

def ofKeyWord? (opcode : Opcode) : Option Instruction :=
  if opcode.byte = 0x9E then some (.skipOnKey opcode.x true)
  else if opcode.byte = 0xA1 then some (.skipOnKey opcode.x false)
  else none

def ofOpcode? (opcode : Opcode) : Option Instruction :=
  match opcode.family.val with
  | 0x0 => some (ofSystemWord opcode)
  | 0x1 => some (.jump opcode.address)
  | 0x2 => some (.call opcode.address)
  | 0x3 => some (.skipIfEqual opcode.x (.immediate opcode.byte))
  | 0x4 => some (.skipUnlessEqual opcode.x (.immediate opcode.byte))
  | 0x5 => if opcode.nibble.val = 0 then some (.skipIfEqual opcode.x (.register opcode.y)) else none
  | 0x6 => some (.load opcode.x opcode.byte)
  | 0x7 => some (.addImmediate opcode.x opcode.byte)
  | 0x8 => (Arithmetic.ofCode? opcode.nibble.val).map fun operation =>
      .arithmetic operation opcode.x opcode.y
  | 0x9 =>
      if opcode.nibble.val = 0 then some (.skipUnlessEqual opcode.x (.register opcode.y)) else none
  | 0xA => some (.loadIndex opcode.address)
  | 0xB => some (.jumpOffset opcode.address)
  | 0xC => some (.random opcode.x opcode.byte)
  | 0xD => some (.draw opcode.x opcode.y opcode.nibble)
  | 0xE => ofKeyWord? opcode
  | _ => (Auxiliary.ofCode? opcode.byte.toNat).map fun operation => .auxiliary operation opcode.x

def decode (opcode : Opcode) : Except Fault Instruction :=
  match ofOpcode? opcode with
  | some instruction => .ok instruction
  | none => .error (.invalidOpcode opcode)

theorem decode_eq_ok_iff {opcode : Opcode} {instruction : Instruction} :
    decode opcode = .ok instruction ↔ ofOpcode? opcode = some instruction := by
  rw [decode]
  cases ofOpcode? opcode with
  | none => simp only [reduceCtorEq]
  | some other => simp only [Except.ok.injEq, Option.some.injEq]

end Chip8.Instruction

namespace Chip8.Opcode

variable {opcode : Opcode}

theorem ofOpcode?_of_jump (family : opcode.family.val = 0x1) :
    Instruction.ofOpcode? opcode = some (.jump opcode.address) := by
  rw [Instruction.ofOpcode?, family]
  rfl

theorem ofOpcode?_of_arithmetic {operation : Arithmetic} (family : opcode.family.val = 0x8)
    (code : operation.code = opcode.nibble.val) :
    Instruction.ofOpcode? opcode = some (.arithmetic operation opcode.x opcode.y) := by
  rw [Instruction.ofOpcode?, family]
  simp only [Arithmetic.ofCode?_eq_some_iff.mpr code, Option.map_some]

theorem ofOpcode?_of_draw (family : opcode.family.val = 0xD) :
    Instruction.ofOpcode? opcode = some (.draw opcode.x opcode.y opcode.nibble) := by
  rw [Instruction.ofOpcode?, family]
  rfl

theorem ofOpcode?_of_auxiliary {operation : Auxiliary} (family : opcode.family.val = 0xF)
    (code : operation.code = opcode.byte.toNat) :
    Instruction.ofOpcode? opcode = some (.auxiliary operation opcode.x) := by
  rw [Instruction.ofOpcode?, family]
  simp only [Auxiliary.ofCode?_eq_some_iff.mpr code, Option.map_some]

end Chip8.Opcode
