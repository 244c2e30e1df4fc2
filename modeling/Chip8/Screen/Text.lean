import Chip8.Screen.Basic

/-!
A screen as text: one line per row, one character per cell.
-/

namespace Chip8.Screen

def cellChar (lit : Bool) : Char := if lit then '#' else '.'

def rowChars (screen : Screen) (row : Fin height) : List Char :=
  List.ofFn fun column : Fin width => cellChar (screen.lit (cellAt column row))

def lines (screen : Screen) : List String :=
  (List.finRange height).map fun row => String.ofList (screen.rowChars row)

/-- Every line is ended, the last one too. -/
def text (screen : Screen) : String :=
  String.ofList ((List.finRange height).flatMap fun row => screen.rowChars row ++ ['\n'])

end Chip8.Screen
