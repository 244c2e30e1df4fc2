import Chip8.Machine.Step

/-!
Routines that decide where execution goes on: jumps, calls and skips. A routine runs after
the program counter has moved past the opcode, so a skip moves it once more.
-/

namespace Chip8.Routine

def skipWhen (condition : Bool) (machine : Machine) : Step Fault :=
  .quiet (if condition then machine.skip else machine)

def runControl (opcode : Opcode) (machine : Machine) : Step Fault :=
  if opcode.word = 0x00E0 then
    let panel := machine.panel.clear
    .sending { machine with panel := panel } [.redrawn panel.screen]
  else if opcode.word = 0x00EE then
    match machine.stack.pop with
    | .ok (address, stack) => .quiet { machine with stack := stack, counter := address }
    | .error fault => .failing machine fault
  else .sending machine [.noticed (.ignoredSystemCall opcode.address)]

def runJump (opcode : Opcode) (machine : Machine) : Step Fault :=
  .quiet { machine with counter := UInt16.ofNat opcode.address.val }

def runCall (opcode : Opcode) (machine : Machine) : Step Fault :=
  match machine.stack.push machine.counter with
  | .ok stack =>
      .quiet { machine with stack := stack, counter := UInt16.ofNat opcode.address.val }
  | .error fault => .failing machine fault

def runJumpOffset (opcode : Opcode) (machine : Machine) : Step Fault :=
  .quiet
    { machine with
      counter := UInt16.ofNat opcode.address.val + (machine.register Register.base).toUInt16 }

def runSkipEqualByte (opcode : Opcode) (machine : Machine) : Step Fault :=
  skipWhen (machine.register opcode.x == opcode.byte) machine

def runSkipUnequalByte (opcode : Opcode) (machine : Machine) : Step Fault :=
  skipWhen (machine.register opcode.x != opcode.byte) machine

def runSkipEqualRegister (opcode : Opcode) (machine : Machine) : Step Fault :=
  if opcode.nibble.val ≠ 0 then .rejecting machine opcode
  else skipWhen (machine.register opcode.x == machine.register opcode.y) machine

def runSkipUnequalRegister (opcode : Opcode) (machine : Machine) : Step Fault :=
  if opcode.nibble.val ≠ 0 then .rejecting machine opcode
  else skipWhen (machine.register opcode.x != machine.register opcode.y) machine

def runSkipKey (opcode : Opcode) (machine : Machine) : Step Fault :=
  let down := machine.keypad.isDown (Key.ofByte (machine.register opcode.x))
  if opcode.byte = 0x9E then skipWhen down machine
  else if opcode.byte = 0xA1 then skipWhen (!down) machine
  else .rejecting machine opcode

end Chip8.Routine
