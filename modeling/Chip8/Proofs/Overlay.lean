import Chip8.Proofs.Coverage
import Mathlib.Data.List.Perm.Basic

/-!
Drawings on top of each other. A pixel shows the parity of all the bits that have been drawn over
it, so the order of drawings does not matter, and drawing all of them once more takes them away
again. A sprite can be drawn in pieces, one below the other, and meets a lit cell where one of its
pieces does.
-/

namespace Chip8

structure Drawing where
  sprite : List UInt8
  column : Nat
  row : Nat

def Drawing.stacked (column : Nat) : (row : Nat) → List (List UInt8) → List Drawing
  | _, [] => []
  | row, piece :: rest =>
      { sprite := piece, column := column, row := row } ::
        stacked column (row + piece.length) rest

def Panel.drawOne (panel : Panel) (drawing : Drawing) : Panel × Bool :=
  panel.draw drawing.sprite drawing.column drawing.row

/-- Draws one after the other, and tells of each drawing whether it met a lit cell. -/
def Panel.drawAll (panel : Panel) : List Drawing → Panel × List Bool
  | [] => (panel, [])
  | drawing :: rest =>
      let drawn := panel.drawOne drawing
      let later := drawn.1.drawAll rest
      (later.1, drawn.2 :: later.2)

namespace Screen

theorem ext_lit {one other : Screen} (same : ∀ cell, one.lit cell = other.lit cell) :
    one = other := by
  apply Screen.ext
  apply Vector.ext
  intro position within
  have pixel := get_pixels_eq_ite_lit one ⟨position, within⟩
  rw [same, ← get_pixels_eq_ite_lit other] at pixel
  exact pixel

/-! ### Pieces -/

private theorem foldl_stampCell_met (cells : List Cell) (screen : Screen) (met : Bool) :
    cells.foldl stampCell (screen, met) =
      ((screen.stamp cells).1, met || (screen.stamp cells).2) := by
  induction cells generalizing screen met with
  | nil => rw [stamp, List.foldl_nil, List.foldl_nil, Bool.or_false]
  | cons cell rest inductionHypothesis =>
      rw [stamp, List.foldl_cons, List.foldl_cons, stampCell, stampCell, inductionHypothesis,
        inductionHypothesis _ (false || _), Bool.false_or, Bool.or_assoc]

private theorem stamp_append (screen : Screen) (first second : List Cell) :
    screen.stamp (first ++ second) =
      let upper := screen.stamp first
      let lower := upper.1.stamp second
      (lower.1, upper.2 || lower.2) := by
  rw [stamp, List.foldl_append]
  exact foldl_stampCell_met second _ _

private theorem spriteCells_append (first second : List UInt8) (column row : Nat) :
    spriteCells (first ++ second) column row =
      spriteCells first column row ++ spriteCells second column (row + first.length) := by
  induction first generalizing row with
  | nil => rfl
  | cons bits rest inductionHypothesis =>
      rw [List.cons_append, spriteCells, spriteCells, inductionHypothesis, List.append_assoc,
        List.length_cons, Nat.add_right_comm, Nat.add_assoc row]

end Screen

namespace Panel

open Screen

theorem draw_append (panel : Panel) (first second : List UInt8) (column row : Nat) :
    panel.draw (first ++ second) column row =
      let upper := panel.draw first column row
      let lower := upper.1.draw second column (row + first.length)
      (lower.1, upper.2 || lower.2) := by
  rw [draw, spriteCells_append, stamp_append]
  rfl

private theorem draw_flatten (panel : Panel) (pieces : List (List UInt8)) (column row : Nat) :
    let whole := panel.draw pieces.flatten column row
    let parts := panel.drawAll (Drawing.stacked column row pieces)
    parts.1.screen = whole.1.screen ∧ parts.2.any id = whole.2 := by
  induction pieces generalizing panel row with
  | nil => exact ⟨rfl, rfl⟩
  | cons piece rest inductionHypothesis =>
      obtain ⟨screen, met⟩ :=
        inductionHypothesis (panel.draw piece column row).1 (row + piece.length)
      rw [List.flatten_cons, draw_append]
      exact ⟨screen, congrArg ((panel.draw piece column row).2 || ·) met⟩

/-! ### Order -/

/-- All that counts for a pixel is how many bits are drawn over it, in whatever order. -/
theorem lit_drawAll (panel : Panel) (drawings : List Drawing) (cell : Cell) :
    (panel.drawAll drawings).1.screen.lit cell =
      (panel.screen.lit cell ^^
        ((drawings.flatMap fun drawing =>
          spriteCells drawing.sprite drawing.column drawing.row).count cell).bodd) := by
  induction drawings generalizing panel with
  | nil => rw [drawAll, List.flatMap_nil, List.count_nil, Nat.bodd_zero, Bool.xor_false]
  | cons drawing rest inductionHypothesis =>
      rw [drawAll, inductionHypothesis, drawOne, draw, stamp, lit_foldl_stampCell,
        List.flatMap_cons, List.count_append, Nat.bodd_add, Bool.xor_assoc]

private theorem screen_drawAll_of_perm {drawings permuted : List Drawing}
    (rearranged : permuted.Perm drawings) (panel : Panel) :
    (panel.drawAll permuted).1.screen = (panel.drawAll drawings).1.screen := by
  apply ext_lit
  intro cell
  rw [lit_drawAll, lit_drawAll, (rearranged.flatMap_right _).count_eq]

theorem screen_drawAll_twice (panel : Panel) (drawings : List Drawing) :
    ((panel.drawAll drawings).1.drawAll drawings).1.screen = panel.screen := by
  apply ext_lit
  intro cell
  rw [lit_drawAll, lit_drawAll, Bool.xor_assoc, Bool.xor_self, Bool.xor_false]

/-- Drawings leave the same pixels in any order, and all of them once more, in any order again,
bring back what was there before. A sprite cut into pieces anywhere leaves the same pixels as the
whole sprite, and a lit cell is met by the whole where it is met by one of the pieces; this holds in
particular of its rows above some row and the rest. -/
theorem drawings_commute_cancel_and_split (panel : Panel) (drawings : List Drawing) :
    (∀ permuted, permuted.Perm drawings →
      (panel.drawAll permuted).1.screen = (panel.drawAll drawings).1.screen ∧
        ((panel.drawAll drawings).1.drawAll permuted).1.screen = panel.screen) ∧
      (∀ pieces column row,
        let whole := panel.draw pieces.flatten column row
        let parts := panel.drawAll (Drawing.stacked column row pieces)
        parts.1.screen = whole.1.screen ∧ parts.2.any id = whole.2) ∧
      ∀ (sprite : List UInt8) (column row : Nat), ∀ count ≤ sprite.length,
        let upper := panel.draw (sprite.take count) column row
        let lower := upper.1.draw (sprite.drop count) column (row + count)
        panel.draw sprite column row = (lower.1, upper.2 || lower.2) := by
  refine ⟨?_, panel.draw_flatten, ?_⟩
  · intro permuted rearranged
    refine ⟨screen_drawAll_of_perm rearranged panel, ?_⟩
    rw [screen_drawAll_of_perm rearranged, screen_drawAll_twice]
  · intro sprite column row count within upper lower
    have parts := panel.draw_append (sprite.take count) (sprite.drop count) column row
    rw [List.take_append_drop, List.length_take_of_le within] at parts
    exact parts

end Panel

end Chip8
