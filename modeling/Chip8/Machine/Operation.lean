import Chip8.Machine.Run

/-!
What can be done to a machine on its own, one operation at a time: the stack is worked by hand,
single opcodes are carried out by a routine or under a table, and every field but the stack may be
replaced.
-/

namespace Chip8

/-- A new value for a field of a machine. The stack has none; it changes by its operations. -/
inductive Assignment
  | memory (value : Memory)
  | registers (value : Vector UInt8 16)
  | index (value : UInt16)
  | counter (value : UInt16)
  | panel (value : Panel)
  | delay (value : Countdown)
  | sound (value : Countdown)
  | keypad (value : Keypad)

def Assignment.apply (machine : Machine) : Assignment → Machine
  | .memory value => { machine with memory := value }
  | .registers value => { machine with registers := value }
  | .index value => { machine with index := value }
  | .counter value => { machine with counter := value }
  | .panel value => { machine with panel := value }
  | .delay value => { machine with delay := value }
  | .sound value => { machine with sound := value }
  | .keypad value => { machine with keypad := value }

inductive Operation
  | push (address : UInt16)
  | pop
  | skip
  | perform (routine : Routine) (opcode : Opcode)
  | dispatch (table : RoutineTable) (opcode : Opcode)
  | reset
  | assign (assignment : Assignment)

/-- What an operation gives back: its signals, and an address if it delivers one. -/
structure Answer where
  signals : List Signal
  result : Except Fault (Option UInt16)

namespace Answer

def done : Answer :=
  { signals := []
    result := .ok none }

def delivering (address : UInt16) : Answer :=
  { signals := []
    result := .ok (some address) }

def failed (fault : Fault) : Answer :=
  { signals := []
    result := .error fault }

end Answer

def Step.answer (step : Step Fault) : Answer :=
  { signals := step.signals
    result :=
      match step.failure with
      | none => .ok none
      | some fault => .error fault }

namespace Machine

def operate (machine : Machine) : Operation → Machine × Answer
  | .push address =>
      match machine.stack.push address with
      | .ok stack => ({ machine with stack := stack }, .done)
      | .error fault => (machine, .failed fault)
  | .pop =>
      match machine.stack.pop with
      | .ok (address, stack) => ({ machine with stack := stack }, .delivering address)
      | .error fault => (machine, .failed fault)
  | .skip => (machine.skip, .done)
  | .perform routine opcode =>
      let step := routine.perform opcode machine
      (step.machine, step.answer)
  | .dispatch table opcode =>
      let step := table.dispatch opcode machine
      (step.machine, step.answer)
  | .reset => (machine.reset, .done)
  | .assign assignment => (assignment.apply machine, .done)

def undergo (machine : Machine) : List Operation → Machine × List Answer
  | [] => (machine, [])
  | operation :: rest =>
      let next := machine.operate operation
      let later := next.1.undergo rest
      (later.1, next.2 :: later.2)

end Machine

end Chip8
