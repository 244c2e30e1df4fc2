/-!
The screen: 64 by 32 cells, kept row by row as bytes. A pixel is 1 where its cell is lit and 0
where it is dark. Positions wrap around at both edges.
-/

namespace Chip8

namespace Screen

def width : Nat := 64

def height : Nat := 32

def area : Nat := width * height

/-- A cell by its number, counted along the rows from the top left. -/
abbrev Cell := Fin area

/-- The cell at a position anywhere on the endlessly repeated screen. -/
def cellAt (column row : Nat) : Cell :=
  ⟨row % height * width + column % width, by
    have rowBound : row % height < height := Nat.mod_lt row (by decide)
    have columnBound : column % width < width := Nat.mod_lt column (by decide)
    simp only [area, width, height] at *
    omega⟩

end Screen

@[ext]
structure Screen where
  pixels : Vector UInt8 Screen.area
  binary : ∀ cell : Screen.Cell, pixels[cell] = 0 ∨ pixels[cell] = 1
  deriving DecidableEq

namespace Screen

def dark : Screen :=
  { pixels := Vector.replicate area 0
    binary := fun _ => .inl (by simp) }

def lit (screen : Screen) (cell : Cell) : Bool := screen.pixels[cell] == 1

private theorem flip_binary {pixel : UInt8} (binary : pixel = 0 ∨ pixel = 1) :
    pixel ^^^ 1 = 0 ∨ pixel ^^^ 1 = 1 := by
  cases binary with
  | inl dark => exact .inr (by rw [dark]; rfl)
  | inr lit => exact .inl (by rw [lit]; rfl)

def toggle (screen : Screen) (cell : Cell) : Screen :=
  { pixels := screen.pixels.set cell (screen.pixels[cell] ^^^ 1)
    binary := by
      intro other
      simp only [Fin.getElem_fin, Vector.getElem_set]
      split
      · exact flip_binary (screen.binary cell)
      · exact screen.binary other }

/-- The pixel at a column and row, by its number alone: a column past the right edge
continues on the next row. -/
def pixel? (screen : Screen) (column row : Nat) : Option UInt8 :=
  screen.pixels[row * width + column]?

theorem lit_dark (cell : Cell) : dark.lit cell = false := by
  simp [lit, dark]

theorem lit_toggle (screen : Screen) (toggled cell : Cell) :
    (screen.toggle toggled).lit cell =
      if cell = toggled then !screen.lit cell else screen.lit cell := by
  simp only [lit, toggle, Fin.getElem_fin, Vector.getElem_set, Fin.ext_iff]
  by_cases same : cell.val = toggled.val
  · rw [if_pos same, if_pos same.symm]
    have binary := screen.binary toggled
    simp only [Fin.getElem_fin] at binary
    simp only [same]
    cases binary with
    | inl dark => rw [dark]; rfl
    | inr lit => rw [lit]; rfl
  · rw [if_neg same, if_neg (Ne.symm same)]

theorem pixels_toggle_of_ne (screen : Screen) {toggled : Cell} {position : Nat}
    (different : toggled.val ≠ position) :
    (screen.toggle toggled).pixels[position]? = screen.pixels[position]? :=
  Vector.getElem?_set_ne toggled.isLt different

end Screen

end Chip8
