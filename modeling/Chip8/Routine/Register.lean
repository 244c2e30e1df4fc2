import Chip8.Machine.Step

/-!
Routines that compute in the registers.
-/

namespace Chip8.Routine

def bit (condition : Bool) : UInt8 := if condition then 1 else 0

def runLoadByte (opcode : Opcode) (machine : Machine) : Step Fault :=
  .quiet (machine.setRegister opcode.x opcode.byte)

def runAddByte (opcode : Opcode) (machine : Machine) : Step Fault :=
  .quiet (machine.setRegister opcode.x (machine.register opcode.x + opcode.byte))

def combine (operation : Arithmetic) (left right : UInt8) : UInt8 × Option UInt8 :=
  match operation with
  | .copy => (right, none)
  | .bitOr => (left ||| right, none)
  | .bitAnd => (left &&& right, none)
  | .bitXor => (left ^^^ right, none)
  | .add => (left + right, some (bit (left + right < left)))
  | .subtract => (left - right, some (bit (right ≤ left)))
  | .shiftRight => (left >>> 1, some (left &&& 1))
  | .subtractFrom => (right - left, some (bit (left ≤ right)))
  | .shiftLeft => (left <<< 1, some (left >>> 7))

/-- The flag is written first, so a result that goes to the flag register stays. -/
def runArithmetic (opcode : Opcode) (machine : Machine) : Step Fault :=
  match Arithmetic.ofCode? opcode.nibble.val with
  | none => .rejecting machine opcode
  | some operation =>
      match combine operation (machine.register opcode.x) (machine.register opcode.y) with
      | (result, none) => .quiet (machine.setRegister opcode.x result)
      | (result, some flag) =>
          .quiet ((machine.setRegister Register.flag flag).setRegister opcode.x result)

def runLoadIndex (opcode : Opcode) (machine : Machine) : Step Fault :=
  .quiet { machine with index := UInt16.ofNat opcode.address.val }

def runRandom (opcode : Opcode) (machine : Machine) : Step Fault :=
  let drawn := { machine with entropy := machine.entropy.advance }
  .quiet (drawn.setRegister opcode.x (machine.entropy.next &&& opcode.byte))

end Chip8.Routine
