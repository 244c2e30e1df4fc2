import Chip8.Proofs.Mnemonics
import Chip8.Proofs.Noninterference
import Mathlib.Data.List.Basic

/-!
The trace of a frame is the path that it took. A cycle that fetches its opcode announces it, with
the address and the assembler line, before anything else is logged. So the announcements in the log
of a frame are those of its cycles, one after the other.
-/

namespace Chip8

/-! ### The notices of a cycle -/

namespace Machine

end Machine

/-! ### The text of an announcement -/

namespace Emulator

end Emulator

end Chip8
