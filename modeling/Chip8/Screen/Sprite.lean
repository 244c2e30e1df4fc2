import Chip8.Screen.Basic

/-!
Sprites are rows of eight pixels. Drawing one toggles the cells that its set bits cover,
and reports whether any of them went from lit to dark on the way.
-/

namespace Chip8.Screen

/-- The highest bit of a row is its leftmost pixel. -/
def rowCells (bits : UInt8) (column row : Nat) : List Cell :=
  ((List.range 8).filter fun offset => bits.toNat.testBit (7 - offset)).map fun offset =>
    cellAt (column + offset) row

/-- The cells under the set bits, row by row from the top left; a cell comes up once for
every bit that falls on it. -/
def spriteCells : (sprite : List UInt8) → (column row : Nat) → List Cell
  | [], _, _ => []
  | bits :: rest, column, row => rowCells bits column row ++ spriteCells rest column (row + 1)

def stampCell (drawn : Screen × Bool) (cell : Cell) : Screen × Bool :=
  let met := drawn.1.lit cell
  (drawn.1.toggle cell, drawn.2 || met)

def stamp (screen : Screen) (cells : List Cell) : Screen × Bool :=
  cells.foldl stampCell (screen, false)

theorem pixels_foldl_stampCell (cells : List Cell) (drawn : Screen × Bool) {position : Nat}
    (outside : ∀ cell ∈ cells, cell.val ≠ position) :
    (cells.foldl stampCell drawn).1.pixels[position]? = drawn.1.pixels[position]? := by
  induction cells generalizing drawn with
  | nil => rfl
  | cons cell rest inductionHypothesis =>
      rw [List.foldl_cons, inductionHypothesis _ (List.forall_mem_cons.mp outside).2]
      exact pixels_toggle_of_ne drawn.1 (List.forall_mem_cons.mp outside).1

theorem exists_of_mem_spriteCells {sprite : List UInt8} {column row : Nat} {cell : Cell}
    (member : cell ∈ spriteCells sprite column row) :
    ∃ down < sprite.length, ∃ right < 8, cell = cellAt (column + right) (row + down) := by
  induction sprite generalizing row with
  | nil => cases member
  | cons bits rest inductionHypothesis =>
      rcases List.mem_append.mp member with first | later
      · obtain ⟨right, inRow, same⟩ := List.mem_map.mp first
        have inside := List.mem_range.mp (List.mem_filter.mp inRow).1
        exact ⟨0, Nat.succ_pos _, right, inside, same.symm⟩
      · obtain ⟨down, below, right, inRow, same⟩ := inductionHypothesis later
        refine ⟨down + 1, Nat.succ_lt_succ below, right, inRow, ?_⟩
        rw [same, Nat.add_right_comm, Nat.add_assoc]

end Chip8.Screen
