/-!
The memory map and the sizes of the machine's fixed stores.
-/

namespace Chip8

def memorySize : Nat := 4096

def glyphStart : Nat := 0x50

def programStart : Nat := 0x200

/-- A program may fill memory to its end. -/
def programCapacity : Nat := memorySize - programStart

def callCapacity : Nat := 16

end Chip8
