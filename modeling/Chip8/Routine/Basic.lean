import Chip8.Routine.Device
import Chip8.Routine.Flow
import Chip8.Routine.Register

/-!
The routines that carry out opcodes, one for each family of the instruction set. A routine
looks only at the digits that it needs, so it can serve any family.
-/

namespace Chip8

inductive Routine
  | control
  | jump
  | call
  | skipEqualByte
  | skipUnequalByte
  | skipEqualRegister
  | loadByte
  | addByte
  | arithmetic
  | skipUnequalRegister
  | loadIndex
  | jumpOffset
  | random
  | draw
  | skipKey
  | auxiliary
  deriving DecidableEq, Repr

def Routine.perform : Routine → Opcode → Machine → Step Fault
  | .control => runControl
  | .jump => runJump
  | .call => runCall
  | .skipEqualByte => runSkipEqualByte
  | .skipUnequalByte => runSkipUnequalByte
  | .skipEqualRegister => runSkipEqualRegister
  | .loadByte => runLoadByte
  | .addByte => runAddByte
  | .arithmetic => runArithmetic
  | .skipUnequalRegister => runSkipUnequalRegister
  | .loadIndex => runLoadIndex
  | .jumpOffset => runJumpOffset
  | .random => runRandom
  | .draw => runDraw
  | .skipKey => runSkipKey
  | .auxiliary => runAuxiliary

end Chip8
