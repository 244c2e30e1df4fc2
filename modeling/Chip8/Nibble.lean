/-!
Half bytes. The machine has sixteen registers, sixteen keys and sixteen families of
instructions, and a half byte names one of them.
-/

namespace Chip8

abbrev Nibble := Fin 16

def Nibble.ofNat (value : Nat) : Nibble := ⟨value % 16, Nat.mod_lt value (by decide)⟩

theorem Nibble.val_ofNat (value : Nat) : (Nibble.ofNat value).val = value % 16 := rfl

end Chip8
