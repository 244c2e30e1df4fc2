/-!
The sprites of the sixteen hexadecimal digits. A sprite is a list of rows from the top,
each a byte whose highest bit is the leftmost pixel.
-/

namespace Chip8.Glyph

def height : Nat := 5

def rows : Vector (Vector UInt8 height) 16 :=
  #v[
    #v[0xF0, 0x90, 0x90, 0x90, 0xF0],
    #v[0x20, 0x60, 0x20, 0x20, 0x70],
    #v[0xF0, 0x10, 0xF0, 0x80, 0xF0],
    #v[0xF0, 0x10, 0xF0, 0x10, 0xF0],
    #v[0x90, 0x90, 0xF0, 0x10, 0x10],
    #v[0xF0, 0x80, 0xF0, 0x10, 0xF0],
    #v[0xF0, 0x80, 0xF0, 0x90, 0xF0],
    #v[0xF0, 0x10, 0x20, 0x40, 0x40],
    #v[0xF0, 0x90, 0xF0, 0x90, 0xF0],
    #v[0xF0, 0x90, 0xF0, 0x10, 0xF0],
    #v[0xF0, 0x90, 0xF0, 0x90, 0x90],
    #v[0xE0, 0x90, 0xE0, 0x90, 0xE0],
    #v[0xF0, 0x80, 0x80, 0x80, 0xF0],
    #v[0xE0, 0x90, 0x90, 0x90, 0xE0],
    #v[0xF0, 0x80, 0xF0, 0x80, 0xF0],
    #v[0xF0, 0x80, 0xF0, 0x80, 0x80]]

def bytes : List UInt8 := rows.toList.flatMap Vector.toList

end Chip8.Glyph
