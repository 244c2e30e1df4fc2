import Chip8.Instruction.Decode
import Chip8.Instruction.Mnemonic
import Chip8.Log

/-!
What the machine reports while it runs. A notice is data; its level and its text are
read off it.
-/

namespace Chip8

inductive Notice
  | unimplemented (opcode : Opcode)
  | ignoredSystemCall (target : Address)
  | wasReset
  | programLoaded (size : Nat)
  | executing (address : UInt16) (opcode : Opcode)
  deriving DecidableEq, Repr

/-- The assembler line of an opcode, or question marks where it stands for nothing. -/
def Opcode.line (opcode : Opcode) : String :=
  match Instruction.ofOpcode? opcode with
  | some instruction => instruction.line
  | none => "???"

namespace Notice

def level : Notice → Level
  | .unimplemented _ => .warning
  | .ignoredSystemCall _ => .debug
  | .wasReset => .debug
  | .programLoaded _ => .debug
  | .executing _ _ => .trace

def text : Notice → String
  | .unimplemented opcode => "unimplemented opcode " ++ opcode.text
  | .ignoredSystemCall target => "ignoring SYS " ++ addressOperand target
  | .wasReset => "interpreter reset"
  | .programLoaded size => s!"loaded {size} byte program"
  | .executing address opcode =>
      addressText address.toNat ++ ": " ++ opcode.text ++ " " ++ opcode.line

end Notice

end Chip8
