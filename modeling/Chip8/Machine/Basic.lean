import Chip8.CallStack
import Chip8.Countdown
import Chip8.Entropy
import Chip8.Instruction.Basic
import Chip8.Keypad
import Chip8.Memory
import Chip8.Screen.Panel

/-!
The complete state of a machine. The supply of random bytes belongs to the state, so that
running is a function.
-/

namespace Chip8

@[ext]
structure Machine where
  memory : Memory
  registers : Vector UInt8 16
  index : UInt16
  counter : UInt16
  panel : Panel
  delay : Countdown
  sound : Countdown
  stack : CallStack
  keypad : Keypad
  entropy : Entropy

namespace Machine

def initial (entropy : Entropy) : Machine :=
  { memory := Memory.initial
    registers := Vector.replicate 16 0
    index := 0
    counter := UInt16.ofNat programStart
    panel := Panel.blank
    delay := Countdown.stopped
    sound := Countdown.stopped
    stack := CallStack.empty
    keypad := Keypad.released
    entropy := entropy }

/-- Clears every store in place and puts the digit sprites back. Random bytes already used do not
come back. -/
def reset (machine : Machine) : Machine :=
  { machine with
    memory := Memory.blank.overwrite glyphStart Glyph.bytes
    registers := Vector.replicate 16 0
    index := 0
    counter := UInt16.ofNat programStart
    panel := machine.panel.reset
    delay := machine.delay.set 0
    sound := machine.sound.set 0
    stack := machine.stack.clear
    keypad := machine.keypad.clear }

def register (machine : Machine) (register : Register) : UInt8 := machine.registers[register]

def setRegister (machine : Machine) (register : Register) (value : UInt8) : Machine :=
  { machine with registers := machine.registers.set register value }

/-- Every instruction is two bytes long. -/
def skip (machine : Machine) : Machine := { machine with counter := machine.counter + 2 }

theorem register_setRegister (machine : Machine) (written read : Register) (value : UInt8) :
    (machine.setRegister written value).register read =
      if read = written then value else machine.register read := by
  simp only [register, setRegister, Fin.getElem_fin, Vector.getElem_set, Fin.ext_iff, eq_comm]

end Machine

end Chip8
