import Chip8.Proofs.Overlay
import Chip8.Screen.Text
import Mathlib.Data.List.OfFn

/-!
The views of a panel. The text of a screen has one line for each row and one character for each
pixel, so every position of the text belongs to one pixel or ends a line. The text, the pixels by
their numbers, the pixels by column and row, and the screen that a display is offered all tell the
same, and the text tells everything.
-/

namespace Chip8

namespace Screen

/-! ### Positions of the text -/

/-- The character at a position of the text. Every line is one longer than the screen is wide. -/
def textChar (screen : Screen) (position : Nat) : Char :=
  let column := position % (width + 1)
  if column = width then '\n' else cellChar (screen.lit (cellAt column (position / (width + 1))))

theorem textChar_of_lt (screen : Screen) {column : Nat} (inside : column < width) (row : Nat) :
    screen.textChar (row * (width + 1) + column) = cellChar (screen.lit (cellAt column row)) := by
  have place : (row * (width + 1) + column) % (width + 1) = column := by
    rw [width] at *
    omega
  have line : (row * (width + 1) + column) / (width + 1) = row := by
    rw [width] at *
    omega
  simp only [textChar, place, line, if_neg (Nat.ne_of_lt inside)]

theorem textChar_width (screen : Screen) (row : Nat) :
    screen.textChar (row * (width + 1) + width) = '\n' := by
  have place : (row * (width + 1) + width) % (width + 1) = width := by
    rw [width]
    omega
  simp only [textChar, place, if_true]

private theorem rowChars_append_newline (screen : Screen) (row : Fin height) :
    screen.rowChars row ++ ['\n'] =
      List.ofFn fun column : Fin (width + 1) =>
        screen.textChar (row.val * (width + 1) + column.val) := by
  rw [List.ofFn_succ_last, rowChars]
  refine congrArg₂ (· ++ [·]) (congrArg List.ofFn ?_) (screen.textChar_width row.val).symm
  funext column
  exact (screen.textChar_of_lt column.isLt row.val).symm

theorem toList_text (screen : Screen) :
    screen.text.toList =
      List.ofFn fun position : Fin (height * (width + 1)) => screen.textChar position.val := by
  rw [text, String.toList_ofList, List.flatMap_def, ← List.ofFn_eq_map, List.ofFn_mul]
  exact congrArg (fun rows => (List.ofFn rows).flatten) (funext screen.rowChars_append_newline)

theorem getElem?_text (screen : Screen) {row column : Nat} (low : row < height)
    (upTo : column ≤ width) :
    screen.text.toList[row * (width + 1) + column]? =
      some (screen.textChar (row * (width + 1) + column)) := by
  have inside : row * (width + 1) + column < height * (width + 1) := by
    simp only [width, height] at *
    omega
  rw [toList_text, List.getElem?_ofFn, dif_pos inside]

/-! ### Lines -/

private theorem newline_not_mem_rowChars (screen : Screen) (row : Fin height) :
    '\n' ∉ screen.rowChars row := by
  intro member
  obtain ⟨column, same⟩ := List.mem_ofFn.mp member
  cases lit : screen.lit (cellAt column row) with
  | false => rw [lit] at same; exact absurd same (by decide)
  | true => rw [lit] at same; exact absurd same (by decide)

private theorem toList_text_eq_lines (screen : Screen) :
    screen.text.toList = screen.lines.flatMap fun line => line.toList ++ ['\n'] := by
  rw [text, String.toList_ofList, lines, List.flatMap_map]
  simp only [String.toList_ofList]

private theorem line_of_mem {screen : Screen} {line : String} (member : line ∈ screen.lines) :
    line.length = width ∧ '\n' ∉ line.toList := by
  obtain ⟨row, _, same⟩ := List.mem_map.mp member
  rw [← same, String.length_ofList, String.toList_ofList]
  exact ⟨List.length_ofFn, screen.newline_not_mem_rowChars row⟩

/-! ### Pixels -/

private theorem pixel?_eq_ite_lit (screen : Screen) {column row : Nat} (inside : column < width)
    (low : row < height) :
    screen.pixel? column row = some (if screen.lit (cellAt column row) then 1 else 0) := by
  have number : (cellAt column row).val = row * width + column := by
    simp only [cellAt, Nat.mod_eq_of_lt inside, Nat.mod_eq_of_lt low]
  rw [pixel?, ← number, ← get_pixels_eq_ite_lit]
  exact Vector.getElem?_eq_getElem (cellAt column row).isLt

private theorem pixel?_isSome_iff (screen : Screen) (column row : Nat) :
    (screen.pixel? column row).isSome = true ↔ row * 64 + column < 2048 := by
  rw [pixel?, isSome_getElem?]
  exact Iff.rfl

private theorem char_of_pixel (screen : Screen) {column row : Nat} (inside : column < width)
    (low : row < height) :
    (screen.pixel? column row = some 1 ∧
        screen.text.toList[row * (width + 1) + column]? = some '#') ∨
      screen.pixel? column row = some 0 ∧
        screen.text.toList[row * (width + 1) + column]? = some '.' := by
  rw [pixel?_eq_ite_lit screen inside low, getElem?_text screen low (Nat.le_of_lt inside),
    textChar_of_lt screen inside]
  cases screen.lit (cellAt column row) with
  | true => exact .inl ⟨rfl, rfl⟩
  | false => exact .inr ⟨rfl, rfl⟩

private theorem cellChar_injective : Function.Injective cellChar := by decide

/-- No two screens have the same text. -/
theorem text_injective : Function.Injective text := by
  intro one other same
  apply ext_lit
  intro number
  obtain ⟨position, place⟩ := exists_position number
  have row := position.2.isLt
  have column := position.1.isLt
  have first := one.getElem?_text row (Nat.le_of_lt column)
  rw [same, other.getElem?_text row (Nat.le_of_lt column), textChar_of_lt one column,
    textChar_of_lt other column, Option.some.injEq] at first
  rw [← place]
  exact (cellChar_injective first).symm

end Screen

namespace Panel

/-- What can be done to a panel. Every display may refuse a screen for reasons of its own kind. -/
inductive Action : Type 1
  | clear
  | reset
  | draw (sprite : List UInt8) (column row : Nat)
  | acknowledge
  | refresh {ε : Type} (present : Screen → Except ε Unit)

def apply (panel : Panel) : Action → Panel
  | .clear => panel.clear
  | .reset => panel.reset
  | .draw sprite column row => (panel.draw sprite column row).1
  | .acknowledge => panel.acknowledge
  | .refresh present => (panel.refresh present).1

def reached (actions : List Action) : Panel := actions.foldl apply blank

/-- The views of every panel agree. Its text has a line of 64 characters for each of the 32 rows, a
hash where the pixel is 1 and a dot where it is 0, and there are no other pixels. The pixels by
column and row are those by their numbers, as far as these go, and a display is offered just these.
Panels with the same text have the same pixels. -/
theorem views_agree (actions : List Action) :
    let panel := reached actions
    let screen := panel.screen
    let text := screen.text.toList
    (text.length = 32 * 65 ∧
        (∀ row < 32, text[row * 65 + 64]? = some '\n') ∧
        ∀ column < 64, ∀ row < 32,
          (screen.pixel? column row = some 1 ∧ text[row * 65 + column]? = some '#') ∨
            screen.pixel? column row = some 0 ∧ text[row * 65 + column]? = some '.') ∧
      (screen.lines.length = 32 ∧
        (∀ line ∈ screen.lines, line.length = 64 ∧ '\n' ∉ line.toList) ∧
        text = screen.lines.flatMap fun line => line.toList ++ ['\n']) ∧
      (∀ column row, screen.pixels[row * 64 + column]? = screen.pixel? column row ∧
        ((screen.pixel? column row).isSome = true ↔ row * 64 + column < 2048)) ∧
      (∀ (ε : Type) (present : Screen → Except ε Unit),
        (panel.refresh present).2.offered? = if panel.changed then some screen else none) ∧
      ∀ others : List Action,
        (reached others).screen.text = screen.text ↔
          (reached others).screen.pixels = screen.pixels := by
  intro panel screen text
  refine ⟨⟨?_, ?_, ?_⟩, ⟨?_, ?_, ?_⟩, ?_, ?_, ?_⟩
  · exact (congrArg List.length screen.toList_text).trans List.length_ofFn
  · intro row low
    refine (screen.getElem?_text low (Nat.le_refl _)).trans (congrArg some ?_)
    exact screen.textChar_width row
  · intro column inside row low
    exact screen.char_of_pixel inside low
  · rw [Screen.lines, List.length_map, List.length_finRange]
    rfl
  · intro line member
    exact Screen.line_of_mem member
  · exact screen.toList_text_eq_lines
  · intro column row
    exact ⟨rfl, screen.pixel?_isSome_iff column row⟩
  · intro ε present
    exact panel.offered_refresh present
  · intro others
    constructor
    · intro same
      exact congrArg Screen.pixels (Screen.text_injective same)
    · intro same
      exact congrArg Screen.text (Screen.ext same)

end Panel

end Chip8
