import Chip8.Emulator.Basic

/-!
The operations that a host can ask of an emulator.
-/

namespace Chip8

inductive Call
  | reset
  | load (program : List UInt8)
  | loadFrom (source : Source)
  | cycle
  | frame (count : Nat)
  | setKey (index : Nat) (down : Bool)
  | setRegister (index : Nat) (value : UInt8)
  | setIndex (value : UInt16)
  | setDelay (value : UInt8)
  | setSound (value : UInt8)
  | overwrite (start : Nat) (bytes : List UInt8)
  | refresh (present : Screen → Except String Unit)
  | acknowledge
  | observeScreen (observer : Option String)
  | observeBuzzer (observer : Option String)

def Register.ofIndex (index : Nat) : Register := Nibble.ofNat index

namespace Emulator

def refresh (emulator : Emulator) (present : Screen → Except String Unit) : Response :=
  let offered := emulator.machine.panel.refresh present
  { emulator := { emulator with machine := { emulator.machine with panel := offered.1 } }
    outputs := []
    reply := .refreshed offered.2 }

def perform (emulator : Emulator) : Call → Response
  | .reset => emulator.act fun machine => .sending machine.reset [.noticed .wasReset]
  | .load program => emulator.act (Machine.load program)
  | .loadFrom source => emulator.act (Machine.loadFrom source)
  | .cycle => emulator.cycle
  | .frame count => emulator.frame count
  | .setKey index down =>
      emulator.modify fun machine =>
        { machine with keypad := machine.keypad.setIndex index down }
  | .setRegister index value =>
      emulator.modify fun machine => machine.setRegister (Register.ofIndex index) value
  | .setIndex value => emulator.modify fun machine => { machine with index := value }
  | .setDelay value => emulator.modify fun machine => { machine with delay := { value := value } }
  | .setSound value => emulator.modify fun machine => { machine with sound := { value := value } }
  | .overwrite start bytes =>
      emulator.modify fun machine =>
        { machine with memory := machine.memory.overwrite start bytes }
  | .refresh present => emulator.refresh present
  | .acknowledge =>
      emulator.modify fun machine => { machine with panel := machine.panel.acknowledge }
  | .observeScreen observer => .silent { emulator with screenObserver := observer }
  | .observeBuzzer observer => .silent { emulator with buzzerObserver := observer }

end Emulator

end Chip8
