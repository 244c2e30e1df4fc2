import Chip8.Routine.Register

/-!
Routines that work on the screen, the timers, the keypad and memory. Everything that can
fail is checked before the first change.
-/

namespace Chip8.Routine

/-! ### Screen -/

def runDraw (opcode : Opcode) (machine : Machine) : Step Fault :=
  match machine.memory.slice machine.index.toNat opcode.nibble.val with
  | .error fault => .failing machine fault
  | .ok sprite =>
      let column := (machine.register opcode.x).toNat
      let row := (machine.register opcode.y).toNat
      let drawn := machine.panel.draw sprite column row
      let flagged := machine.setRegister Register.flag (bit drawn.2)
      .sending { flagged with panel := drawn.1 } [.redrawn drawn.1.screen]

/-! ### Timers, keypad and memory -/

/-- Without a key the program counter moves back onto the opcode. -/
def runAwaitKey (x : Register) (machine : Machine) : Step Fault :=
  match machine.keypad.lowest? with
  | some key => .quiet (machine.setRegister x (UInt8.ofNat key.val))
  | none => .quiet { machine with counter := machine.counter - 2 }

/-- Stores bytes from the index on, all of them or none. -/
def storeAtIndex (bytes : List UInt8) (machine : Machine) : Step Fault :=
  match machine.memory.write machine.index.toNat bytes with
  | .ok memory => .quiet { machine with memory := memory }
  | .error fault => .failing machine fault

def fillRegisters (registers : Vector UInt8 16) (values : List UInt8) : Vector UInt8 16 :=
  Vector.ofFn fun register => values.getD register.val registers[register]

def runRestore (x : Register) (machine : Machine) : Step Fault :=
  match machine.memory.slice machine.index.toNat (x.val + 1) with
  | .ok values => .quiet { machine with registers := fillRegisters machine.registers values }
  | .error fault => .failing machine fault

def runAuxiliary (opcode : Opcode) (machine : Machine) : Step Fault :=
  let x := opcode.x
  let value := machine.register x
  match Auxiliary.ofCode? opcode.byte.toNat with
  | none => .rejecting machine opcode
  | some .readDelay => .quiet (machine.setRegister x machine.delay.value)
  | some .awaitKey => runAwaitKey x machine
  | some .setDelay => .quiet { machine with delay := { value := value } }
  | some .setSound => .quiet { machine with sound := { value := value } }
  | some .addIndex => .quiet { machine with index := (machine.index + value.toUInt16) &&& 0x0FFF }
  | some .pointGlyph =>
      .quiet
        { machine with
          index := UInt16.ofNat glyphStart + UInt16.ofNat Glyph.height * (value &&& 0xF).toUInt16 }
  | some .storeDecimal => storeAtIndex [value / 100, value % 100 / 10, value % 10] machine
  | some .saveRegisters => storeAtIndex (machine.registers.toList.take (x.val + 1)) machine
  | some .restoreRegisters => runRestore x machine

theorem length_take_registers (machine : Machine) (x : Register) :
    (machine.registers.toList.take (x.val + 1)).length = x.val + 1 := by
  have bound := x.isLt
  rw [List.length_take, Vector.length_toList]
  omega

end Chip8.Routine
