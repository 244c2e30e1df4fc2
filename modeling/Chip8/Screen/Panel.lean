import Chip8.Screen.Sprite

/-!
A panel is a screen together with the mark that it changed since it was last shown. Every
clearing and every drawing sets the mark, and only being shown takes it away.
-/

namespace Chip8

@[ext]
structure Panel where
  screen : Screen
  changed : Bool
  deriving DecidableEq

inductive Refresh (ε : Type)
  | upToDate
  | shown (screen : Screen)
  | refused (screen : Screen) (reason : ε)

def Refresh.offered? {ε : Type} : Refresh ε → Option Screen
  | .upToDate => none
  | .shown screen => some screen
  | .refused screen _ => some screen

namespace Panel

def blank : Panel :=
  { screen := Screen.dark
    changed := false }

def clear (_panel : Panel) : Panel :=
  { screen := Screen.dark
    changed := true }

/-- Darkens the screen without a mark, as at power-up. -/
def reset (panel : Panel) : Panel := { panel.clear with changed := false }

/-- Draws a sprite and tells whether a lit cell went dark. -/
def draw (panel : Panel) (sprite : List UInt8) (column row : Nat) : Panel × Bool :=
  let drawn := panel.screen.stamp (Screen.spriteCells sprite column row)
  ({ screen := drawn.1, changed := true }, drawn.2)

def acknowledge (panel : Panel) : Panel := { panel with changed := false }

/-- A display that refuses the screen leaves the mark set. -/
def refresh {ε : Type} (panel : Panel) (present : Screen → Except ε Unit) :
    Panel × Refresh ε :=
  if panel.changed then
    match present panel.screen with
    | .ok _ => (panel.acknowledge, .shown panel.screen)
    | .error reason => (panel, .refused panel.screen reason)
  else (panel, .upToDate)

section

variable {ε : Type} {panel : Panel} {present : Screen → Except ε Unit}

theorem refresh_of_unchanged (unchanged : panel.changed = false) :
    panel.refresh present = (panel, .upToDate) := by
  simp only [refresh, unchanged, Bool.false_eq_true, if_false]

theorem refresh_of_ok (changed : panel.changed = true) (accepted : present panel.screen = .ok ()) :
    panel.refresh present = (panel.acknowledge, .shown panel.screen) := by
  simp only [refresh, changed, if_true, accepted]

theorem refresh_of_error {reason : ε} (changed : panel.changed = true)
    (refused : present panel.screen = .error reason) :
    panel.refresh present = (panel, .refused panel.screen reason) := by
  simp only [refresh, changed, if_true, refused]

/-- A display is called exactly if the mark is set, with the screen as it is. -/
theorem offered_refresh (panel : Panel) (present : Screen → Except ε Unit) :
    (panel.refresh present).2.offered? = if panel.changed then some panel.screen else none := by
  unfold refresh
  split
  · split <;> rfl
  · rfl

theorem screen_refresh (panel : Panel) (present : Screen → Except ε Unit) :
    (panel.refresh present).1.screen = panel.screen := by
  unfold refresh
  split
  · split <;> rfl
  · rfl

end

end Panel

end Chip8
