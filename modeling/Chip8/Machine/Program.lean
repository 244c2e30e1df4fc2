import Chip8.Machine.Step

/-!
Loading programs. A program arrives whole, or in chunks from a source that may break off.
Nothing changes unless the whole program has arrived and fits.
-/

namespace Chip8

/-- The chunks that a source delivers, and the reason if it then breaks off. -/
structure Source where
  chunks : List (List UInt8)
  failure : Option String
  deriving DecidableEq, Repr

namespace Source

/-- An empty chunk means the end of the input. -/
def gather (failure : Option String) : List (List UInt8) → Except Failure (List UInt8)
  | [] =>
      match failure with
      | none => .ok []
      | some reason => .error ((Fault.unreadable reason).during .readingProgram)
  | [] :: _ => .ok []
  | chunk :: rest => (gather failure rest).map (chunk ++ ·)

def contents (source : Source) : Except Failure (List UInt8) :=
  gather source.failure source.chunks

end Source

namespace Machine

def load (program : List UInt8) (machine : Machine) : Step Failure :=
  if programCapacity < program.length then
    .failing machine (Fault.programTooLarge program.length).bare
  else
    .sending
      { machine with
        memory := machine.memory.overwrite programStart program
        counter := UInt16.ofNat programStart }
      [.noticed (.programLoaded program.length)]

def loadFrom (source : Source) (machine : Machine) : Step Failure :=
  match source.contents with
  | .ok program => machine.load program
  | .error failure => .failing machine failure

theorem load_of_le {program : List UInt8} (fits : program.length ≤ programCapacity)
    (machine : Machine) :
    machine.load program =
      .sending
        { machine with
          memory := machine.memory.overwrite programStart program
          counter := UInt16.ofNat programStart }
        [.noticed (.programLoaded program.length)] := if_neg (Nat.not_lt_of_le fits)

theorem load_of_lt {program : List UInt8} (tooLarge : programCapacity < program.length)
    (machine : Machine) :
    machine.load program = .failing machine (Fault.programTooLarge program.length).bare :=
  if_pos tooLarge

end Machine

end Chip8
