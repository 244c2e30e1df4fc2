import Chip8.Machine.Program
import Chip8.Machine.Run

/-!
An emulator is a machine with a routine table and the parties that watch it: one observer
for the screen, one for the buzzer, and a log. Signals of the machine turn into outputs on
the way out; nothing comes back from an observer.
-/

namespace Chip8

@[ext]
structure Emulator where
  machine : Machine
  table : RoutineTable
  screenObserver : Option String
  buzzerObserver : Option String
  verbosity : Verbosity

inductive Output
  | line (notice : Notice)
  | drawn (observer : String) (screen : Screen) (width height : Nat)
  | buzzed (observer : String)

inductive Reply
  | done
  | failed (failure : Failure)
  | refreshed (result : Refresh String)

structure Response where
  emulator : Emulator
  outputs : List Output
  reply : Reply

def Response.silent (emulator : Emulator) : Response :=
  { emulator := emulator
    outputs := []
    reply := .done }

namespace Emulator

def unobserved (table : RoutineTable) (entropy : Entropy) (verbosity : Verbosity) : Emulator :=
  { machine := Machine.initial entropy
    table := table
    screenObserver := none
    buzzerObserver := none
    verbosity := verbosity }

def deliver? (emulator : Emulator) : Signal → Option Output
  | .noticed notice =>
      if emulator.verbosity.keeps notice.level then some (.line notice) else none
  | .redrawn screen =>
      emulator.screenObserver.map fun observer =>
        .drawn observer screen Screen.width Screen.height
  | .buzzerStopped => emulator.buzzerObserver.map .buzzed

def act (emulator : Emulator) (action : Machine → Step Failure) : Response :=
  let step := action emulator.machine
  { emulator := { emulator with machine := step.machine }
    outputs := step.signals.filterMap emulator.deliver?
    reply :=
      match step.failure with
      | none => .done
      | some failure => .failed failure }

def modify (emulator : Emulator) (change : Machine → Machine) : Response :=
  .silent { emulator with machine := change emulator.machine }

def cycle (emulator : Emulator) : Response := emulator.act (Machine.cycle emulator.table)

def frame (emulator : Emulator) (count : Nat) : Response :=
  emulator.act fun machine => machine.frame emulator.table count

end Emulator

end Chip8
