import Chip8.Routine.Basic

/-!
Tables assign a handler to each family, or none. Only the lowest four bits of a number
count when it names a family. The handlers of a routine table are the routines of the
instruction set.
-/

namespace Chip8

@[ext]
structure Table (Handler : Type) where
  slots : Vector (Option Handler) 16
  deriving DecidableEq

namespace Table

variable {Handler : Type}

def family (selector : UInt8) : Nibble := Nibble.ofNat selector.toNat

def empty : Table Handler :=
  { slots := Vector.replicate 16 none }

def register (table : Table Handler) (selector : UInt8) (handler : Handler) : Table Handler :=
  { slots := table.slots.set (family selector) (some handler) }

def unregister (table : Table Handler) (selector : UInt8) : Table Handler :=
  { slots := table.slots.set (family selector) none }

def handles (table : Table Handler) (selector : UInt8) : Bool :=
  (table.slots.get (family selector)).isSome

def dispatchBy {ε : Type} (perform : Handler → Opcode → Machine → Step ε) (table : Table Handler)
    (opcode : Opcode) (machine : Machine) : Step ε :=
  (table.slots.get opcode.family).elim (.rejecting machine opcode) fun handler =>
    perform handler opcode machine

end Table

abbrev RoutineTable := Table Routine

namespace RoutineTable

def standard : RoutineTable :=
  { slots :=
      #v[some .control, some .jump, some .call, some .skipEqualByte,
        some .skipUnequalByte, some .skipEqualRegister, some .loadByte, some .addByte,
        some .arithmetic, some .skipUnequalRegister, some .loadIndex, some .jumpOffset,
        some .random, some .draw, some .skipKey, some .auxiliary] }

def dispatch (table : RoutineTable) (opcode : Opcode) (machine : Machine) : Step Fault :=
  table.dispatchBy Routine.perform opcode machine

end RoutineTable

end Chip8
