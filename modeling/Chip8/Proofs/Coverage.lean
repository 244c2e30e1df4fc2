import Chip8.Screen.Panel
import Mathlib.Algebra.BigOperators.Fin
import Mathlib.Data.Nat.Bits
import Mathlib.Data.Nat.Bitwise
import Mathlib.Data.Nat.Count

/-!
What drawing a sprite does to each position. The set bits of a sprite that wrap around to a position
are counted. The parity of the count alone decides whether the pixel there flips. The count and the
pixel decide whether a lit cell is met on the way, for of two toggles of a cell one finds it lit.
-/

namespace Chip8.Screen

abbrev Position := Fin width × Fin height

def cell (position : Position) : Cell := cellAt position.1.val position.2.val

def pixel (screen : Screen) (position : Position) : UInt8 := screen.pixels.get (cell position)

/-- A bit of a sprite, by its row and its offset from the left, is set and wraps around to a
position. -/
def Covers (sprite : List UInt8) (column row : Nat) (position : Position)
    (bit : Fin sprite.length × Fin 8) : Prop :=
  sprite[bit.1] &&& (0x80 >>> UInt8.ofNat bit.2.val) ≠ 0 ∧
    (column + bit.2.val) % width = position.1.val ∧ (row + bit.1.val) % height = position.2.val

instance (sprite : List UInt8) (column row : Nat) (position : Position) :
    DecidablePred (Covers sprite column row position) :=
  fun _ => inferInstanceAs (Decidable (_ ∧ _ ∧ _))

/-- The number of bits of a sprite that cover a position. -/
def coverage (sprite : List UInt8) (column row : Nat) (position : Position) : Nat :=
  (Finset.univ.filter (Covers sprite column row position)).card

/-! ### Positions and pixels -/

theorem exists_position (number : Cell) : ∃ position, cell position = number := by
  have bound := number.isLt
  simp only [area, width, height] at bound
  refine ⟨(⟨number.val % 64, Nat.mod_lt _ (by decide)⟩, ⟨number.val / 64, ?_⟩), ?_⟩
  · simp only [height]
    omega
  · apply Fin.ext
    simp only [cell, cellAt, width, height]
    omega

private theorem cellAt_eq_cell_iff (column row : Nat) (position : Position) :
    cellAt column row = cell position ↔
      column % width = position.1.val ∧ row % height = position.2.val := by
  have columnBound := position.1.isLt
  have rowBound := position.2.isLt
  simp only [cell, cellAt, Fin.ext_iff, width, height] at *
  omega

theorem get_pixels_eq_ite_lit (screen : Screen) (cell : Cell) :
    screen.pixels.get cell = if screen.lit cell then 1 else 0 := by
  change screen.pixels[cell] = _
  rw [lit]
  cases screen.binary cell with
  | inl dark => rw [dark]; rfl
  | inr lit => rw [lit]; rfl

private theorem pixel_eq_one_iff (screen : Screen) (position : Position) :
    screen.pixel position = 1 ↔ screen.lit (cell position) = true := by
  rw [lit, beq_iff_eq]
  rfl

theorem pixel_eq_zero_iff (screen : Screen) (position : Position) :
    screen.pixel position = 0 ↔ screen.lit (cell position) = false := by
  rw [pixel, get_pixels_eq_ite_lit]
  cases screen.lit (cell position) <;> decide

/-! ### Toggling cells one after the other -/

theorem lit_foldl_stampCell (cells : List Cell) (drawn : Screen × Bool) (cell : Cell) :
    (cells.foldl stampCell drawn).1.lit cell =
      (drawn.1.lit cell ^^ (cells.count cell).bodd) := by
  induction cells generalizing drawn with
  | nil => rw [List.foldl_nil, List.count_nil, Nat.bodd_zero, Bool.xor_false]
  | cons first rest inductionHypothesis =>
      rw [List.foldl_cons, inductionHypothesis, stampCell]
      simp only [lit_toggle]
      by_cases same : cell = first
      · rw [if_pos same, same, List.count_cons_self, Nat.bodd_succ, Bool.not_xor, Bool.xor_not]
      · rw [if_neg same, List.count_cons_of_ne (Ne.symm same)]

/-- The pixel of a cell and the number of toggles there make a lit cell be met. -/
private def Meets (screen : Screen) (cell : Cell) (count : Nat) : Prop :=
  screen.lit cell = true ∧ 1 ≤ count ∨ screen.lit cell = false ∧ 2 ≤ count

private theorem meets_cons_iff (screen : Screen) (first cell : Cell) (rest : List Cell) :
    screen.Meets cell ((first :: rest).count cell) ↔
      (cell = first ∧ screen.lit first = true) ∨
        (screen.toggle first).Meets cell (rest.count cell) := by
  simp only [Meets, lit_toggle]
  by_cases same : cell = first
  · subst same
    rw [List.count_cons_self]
    cases screen.lit cell <;> simp
  · rw [List.count_cons_of_ne (Ne.symm same), if_neg same]
    simp only [same, false_and, false_or]

private theorem met_foldl_stampCell_iff (cells : List Cell) (drawn : Screen × Bool) :
    (cells.foldl stampCell drawn).2 = true ↔
      drawn.2 = true ∨ ∃ cell, drawn.1.Meets cell (cells.count cell) := by
  induction cells generalizing drawn with
  | nil => simp [Meets]
  | cons first rest inductionHypothesis =>
      rw [List.foldl_cons, inductionHypothesis, stampCell]
      simp only [meets_cons_iff, Bool.or_eq_true, exists_or, exists_eq_left, or_assoc]

/-! ### Counting bits -/

private theorem testBit_iff_and_ne_zero (bits : UInt8) (offset : Fin 8) :
    bits.toNat.testBit (7 - offset.val) = true ↔
      bits &&& (0x80 >>> UInt8.ofNat offset.val) ≠ 0 := by
  have mask : (0x80 >>> UInt8.ofNat offset.val : UInt8).toNat = 2 ^ (7 - offset.val) := by
    revert offset
    decide
  rw [ne_eq, ← UInt8.toNat_inj, UInt8.toNat_and, mask, Nat.and_two_pow]
  cases bits.toNat.testBit (7 - offset.val) <;> simp

private theorem count_rowCells (bits : UInt8) (column row : Nat) (position : Position) :
    (rowCells bits column row).count (cell position) =
      ∑ offset : Fin 8,
        if bits &&& (0x80 >>> UInt8.ofNat offset.val) ≠ 0 ∧
          (column + offset.val) % width = position.1.val ∧ row % height = position.2.val
        then 1 else 0 := by
  let covers (offset : Nat) : Prop := bits.toNat.testBit (7 - offset) = true ∧
    (column + offset) % width = position.1.val ∧ row % height = position.2.val
  have counted : (rowCells bits column row).count (cell position) = Nat.count covers 8 := by
    rw [rowCells, List.count_eq_countP, List.countP_map, List.countP_filter, Nat.count]
    apply List.countP_congr
    intro offset _
    simp [covers, cellAt_eq_cell_iff, and_comm]
  rw [counted, Nat.count_eq_card_filter_range, Finset.card_filter,
    ← Fin.sum_univ_eq_sum_range fun offset => if covers offset then 1 else 0]
  refine Finset.sum_congr rfl fun offset _ => if_congr ?_ rfl rfl
  exact and_congr_left' (testBit_iff_and_ne_zero bits offset)

private theorem coverage_cons (bits : UInt8) (rest : List UInt8) (column row : Nat)
    (position : Position) :
    coverage (bits :: rest) column row position =
      (rowCells bits column row).count (cell position) +
        coverage rest column (row + 1) position := by
  rw [count_rowCells]
  simp only [coverage, Finset.card_filter, Fintype.sum_prod_type]
  refine (Fin.sum_univ_succ (n := rest.length) _).trans (congrArg₂ _ rfl ?_)
  refine Finset.sum_congr rfl fun down _ => Finset.sum_congr rfl fun right _ => ?_
  refine if_congr ?_ rfl rfl
  simp only [Covers, Fin.getElem_fin, Fin.val_succ, List.getElem_cons_succ, Nat.add_assoc,
    Nat.add_comm 1]

theorem count_spriteCells (sprite : List UInt8) (column row : Nat) (position : Position) :
    (spriteCells sprite column row).count (cell position) =
      coverage sprite column row position := by
  induction sprite generalizing row with
  | nil => rfl
  | cons bits rest inductionHypothesis =>
      rw [spriteCells, List.count_append, inductionHypothesis, coverage_cons]

/-- A sprite that is no taller than the screen does not come around to cover itself. -/
theorem coverage_le_one {sprite : List UInt8} (low : sprite.length ≤ height) (column row : Nat)
    (position : Position) : coverage sprite column row position ≤ 1 := by
  refine Finset.card_le_one.mpr ?_
  rintro ⟨down, right⟩ first ⟨otherDown, otherRight⟩ second
  obtain ⟨_, rightPlace, downPlace⟩ := (Finset.mem_filter.mp first).2
  obtain ⟨_, otherRightPlace, otherDownPlace⟩ := (Finset.mem_filter.mp second).2
  have rows := down.isLt
  have otherRows := otherDown.isLt
  simp only [width, height] at *
  ext
  · change down.val = otherDown.val
    omega
  · change right.val = otherRight.val
    omega

/-! ### Drawing -/

private theorem pixel_xor_count (old : Bool) (count : Nat) :
    (if (old ^^ count.bodd) then (1 : UInt8) else 0) =
      (if old then 1 else 0) ^^^ UInt8.ofNat (count % 2) := by
  rw [Nat.mod_two_of_bodd]
  cases old <;> cases count.bodd <;> rfl

theorem stamp_spriteCells_pixel (screen : Screen) (sprite : List UInt8) (column row : Nat)
    (position : Position) :
    (screen.stamp (spriteCells sprite column row)).1.pixel position =
      screen.pixel position ^^^ UInt8.ofNat (coverage sprite column row position % 2) := by
  rw [pixel, get_pixels_eq_ite_lit, stamp, lit_foldl_stampCell, count_spriteCells, pixel_xor_count,
    pixel, get_pixels_eq_ite_lit screen]

private theorem meets_cell_iff (screen : Screen) (position : Position) (count : Nat) :
    screen.Meets (cell position) count ↔
      screen.pixel position = 1 ∧ 1 ≤ count ∨ screen.pixel position = 0 ∧ 2 ≤ count := by
  rw [Meets, pixel_eq_one_iff, pixel_eq_zero_iff]

theorem stamp_spriteCells_met_iff (screen : Screen) (sprite : List UInt8) (column row : Nat) :
    (screen.stamp (spriteCells sprite column row)).2 = true ↔
      ∃ position,
        screen.pixel position = 1 ∧ 1 ≤ coverage sprite column row position ∨
          screen.pixel position = 0 ∧ 2 ≤ coverage sprite column row position := by
  rw [stamp, met_foldl_stampCell_iff]
  simp only [Bool.false_eq_true, false_or, ← meets_cell_iff, ← count_spriteCells]
  constructor
  · rintro ⟨number, meets⟩
    obtain ⟨position, same⟩ := exists_position number
    exact ⟨position, same ▸ meets⟩
  · rintro ⟨position, meets⟩
    exact ⟨cell position, meets⟩

private theorem covered_iff_went_dark {old : UInt8} {count : Nat} (once : count ≤ 1) :
    (old = 1 ∧ 1 ≤ count ∨ old = 0 ∧ 2 ≤ count) ↔
      old = 1 ∧ old ^^^ UInt8.ofNat (count % 2) = 0 := by
  constructor
  · rintro (⟨lit, least⟩ | ⟨_, least⟩)
    · rw [lit, Nat.le_antisymm once least]
      exact ⟨rfl, rfl⟩
    · omega
  · rintro ⟨lit, dark⟩
    refine .inl ⟨lit, Nat.one_le_iff_ne_zero.mpr fun uncovered => ?_⟩
    rw [lit, uncovered] at dark
    cases dark

end Chip8.Screen

namespace Chip8.Panel

open Screen

/-- Drawing a sprite of any length anywhere flips exactly the pixels that an odd number of its bits
covers, sets the mark, and tells that a lit cell was met where a lit pixel was covered or a dark one
was covered twice. A sprite that is no taller than the screen covers no position twice, so it meets
a lit cell exactly where a pixel goes dark. -/
theorem draw_flips_odd_coverage (panel : Panel) (sprite : List UInt8) (column row : Nat) :
    let drawn := panel.draw sprite column row
    let before := panel.screen.pixel
    let after := drawn.1.screen.pixel
    let covered := coverage sprite column row
    (∀ position, after position = before position ^^^ UInt8.ofNat (covered position % 2)) ∧
      (∀ position, after position = 0 ∨ after position = 1) ∧
      drawn.1.changed = true ∧
      (drawn.2 = true ↔ ∃ position,
        before position = 1 ∧ 1 ≤ covered position ∨
          before position = 0 ∧ 2 ≤ covered position) ∧
      (sprite.length ≤ height →
        (∀ position, covered position ≤ 1) ∧
          (drawn.2 = true ↔ ∃ position, before position = 1 ∧ after position = 0)) := by
  intro drawn before after covered
  have flipped (position : Position) :
      after position = before position ^^^ UInt8.ofNat (covered position % 2) :=
    panel.screen.stamp_spriteCells_pixel sprite column row position
  have met := panel.screen.stamp_spriteCells_met_iff sprite column row
  refine ⟨flipped, fun position => drawn.1.screen.binary (cell position), rfl, met, ?_⟩
  intro low
  have once := coverage_le_one low column row
  refine ⟨once, met.trans (exists_congr fun position => ?_)⟩
  rw [flipped]
  exact covered_iff_went_dark (once position)

end Chip8.Panel
