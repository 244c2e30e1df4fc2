import Chip8.Proofs.Meaning
import Chip8.Proofs.Overlay

/-!
Drawing twice. The second of two equal drawings turns back every pixel that the first has turned, so
the screen is as it was. After each of them the flag register tells whether a pixel that the sprite
covers was lit before it, and a covered pixel that is dark before the first is lit before the
second. The place must not come from the flag register, for the first drawing writes it.
-/

namespace Chip8

/-- A register value tells of a condition. It is one where that holds and zero elsewhere. -/
def Tells (value : UInt8) (condition : Prop) : Prop :=
  (value = 1 ↔ condition) ∧ (value = 0 ↔ ¬condition)

private theorem tells_ite {condition : Prop} {met : Bool} (same : met = true ↔ condition) :
    Tells (UInt8.ofNat (if met then 1 else 0)) condition := by
  cases met with
  | false =>
      have fails : ¬condition := fun holds => Bool.false_ne_true (same.mpr holds)
      exact ⟨iff_of_false (by decide) fails, iff_of_true rfl fails⟩
  | true =>
      have holds : condition := same.mp rfl
      exact ⟨iff_of_true rfl holds, iff_of_false (by decide) (not_not_intro holds)⟩

/-! ### The screen -/

namespace Panel

variable (panel : Panel) {sprite : List UInt8} {column row : Nat}

private theorem screen_draw_draw (sprite : List UInt8) (column row : Nat) :
    ((panel.draw sprite column row).1.draw sprite column row).1.screen = panel.screen :=
  panel.screen_drawAll_twice [{ sprite := sprite, column := column, row := row }]

private theorem pixel_draw_of_uncovered {position : Screen.Position}
    (uncovered : ¬1 ≤ Screen.coverage sprite column row position) :
    (panel.draw sprite column row).1.screen.pixel position = panel.screen.pixel position := by
  refine (panel.screen.stamp_spriteCells_pixel sprite column row position).trans ?_
  rw [Nat.lt_one_iff.mp (Nat.lt_of_not_le uncovered)]
  exact UInt8.xor_zero

variable (low : sprite.length ≤ Screen.height)

include low

private theorem pixel_draw_of_covered {position : Screen.Position}
    (covered : 1 ≤ Screen.coverage sprite column row position) :
    (panel.draw sprite column row).1.screen.pixel position =
      panel.screen.pixel position ^^^ 1 := by
  refine (panel.screen.stamp_spriteCells_pixel sprite column row position).trans ?_
  rw [Nat.le_antisymm (Screen.coverage_le_one low column row position) covered]
  rfl

theorem met_draw_iff :
    (panel.draw sprite column row).2 = true ↔
      ∃ position, 1 ≤ Screen.coverage sprite column row position ∧
        panel.screen.pixel position = 1 := by
  refine (panel.screen.stamp_spriteCells_met_iff sprite column row).trans (exists_congr ?_)
  intro position
  have once := Screen.coverage_le_one low column row position
  constructor
  · rintro (⟨lit, covered⟩ | ⟨_, twice⟩)
    · exact ⟨covered, lit⟩
    · omega
  · rintro ⟨covered, lit⟩
    exact .inl ⟨lit, covered⟩

private theorem met_draw_draw_iff :
    ((panel.draw sprite column row).1.draw sprite column row).2 = true ↔
      ∃ position, 1 ≤ Screen.coverage sprite column row position ∧
        panel.screen.pixel position = 0 := by
  rw [met_draw_iff _ low]
  refine exists_congr fun position => and_congr_right fun covered => ?_
  rw [panel.pixel_draw_of_covered low covered]
  have binary : panel.screen.pixel position = 0 ∨ panel.screen.pixel position = 1 :=
    panel.screen.binary (Screen.cell position)
  rcases binary with dark | lit
  · rw [dark]
    decide
  · rw [lit]
    decide

end Panel

/-! ### The sprite in memory -/

namespace Machine

def SpriteBit (machine : Machine) (row : Nat) (offset : Fin 8) : Prop :=
  ∃ bits, machine.memory.cells[machine.index.toNat + row]? = some bits ∧
    bits &&& (0x80 >>> UInt8.ofNat offset.val) ≠ 0

/-- A set bit of the sprite of a height falls on a position when the sprite is drawn at the place
that two registers name, with wrapping at both edges. -/
def Covers (machine : Machine) (x y : Register) (height : Nibble) (position : Screen.Position) :
    Prop :=
  ∃ row < height.val, ∃ offset, machine.SpriteBit row offset ∧
    (machine.number x + offset.val) % 64 = position.1.val ∧
    (machine.number y + row) % 32 = position.2.val

variable (machine : Machine) {x y : Register} {height : Nibble}

theorem exists_covers_of_spriteBit (x y : Register) (height : Nibble) {row : Nat}
    {offset : Fin 8} (within : row < height.val) (set : machine.SpriteBit row offset) :
    ∃ position, machine.Covers x y height position := by
  have columnBound := Nat.mod_lt (machine.number x + offset.val) (show 0 < 64 by decide)
  have rowBound := Nat.mod_lt (machine.number y + row) (show 0 < 32 by decide)
  exact ⟨(⟨_, columnBound⟩, ⟨_, rowBound⟩), row, within, offset, set, rfl, rfl⟩

variable (within : machine.index.toNat + height.val ≤ memorySize)

private theorem covers_iff (position : Screen.Position) :
    machine.Covers x y height position ↔
      1 ≤ Screen.coverage (machine.memory.window (machine.indexSpan within)) (machine.number x)
        (machine.number y) position := by
  have length := machine.memory.window_length (machine.indexSpan within)
  have byte {row : Nat} (inside : row < height.val) :
      (machine.memory.window (machine.indexSpan within))[row]? =
        machine.memory.cells[machine.index.toNat + row]? :=
    machine.memory.getElem?_window (machine.indexSpan within) inside
  rw [Screen.coverage, Finset.one_le_card, Finset.filter_nonempty_iff]
  constructor
  · rintro ⟨row, inside, offset, ⟨bits, present, set⟩, place⟩
    rw [← byte inside] at present
    obtain ⟨bound, same⟩ := List.getElem?_eq_some_iff.mp present
    refine ⟨(⟨row, bound⟩, offset), Finset.mem_univ _, ?_, place⟩
    rw [Fin.getElem_fin, same]
    exact set
  · rintro ⟨⟨row, offset⟩, _, set, place⟩
    have inside : row.val < height.val := Nat.lt_of_lt_of_eq row.isLt length
    refine ⟨row.val, inside, offset, ⟨_, ?_, set⟩, place⟩
    rw [← byte inside]
    exact List.getElem?_eq_getElem row.isLt

/-! ### The machine -/

private def withDrawing (drawn : Panel × Bool) : Machine :=
  { machine.setNumber Register.flag (if drawn.2 then 1 else 0) with panel := drawn.1 }

private theorem register_withDrawing {register : Register} (other : register ≠ Register.flag)
    (drawn : Panel × Bool) : (machine.withDrawing drawn).register register =
      machine.register register := by
  exact (machine.register_setRegister Register.flag register _).trans (if_neg other)

private theorem flag_withDrawing (drawn : Panel × Bool) :
    (machine.withDrawing drawn).register Register.flag =
      UInt8.ofNat (if drawn.2 then 1 else 0) := by
  exact (machine.register_setRegister Register.flag Register.flag _).trans (if_pos rfl)

private theorem dispatch_draw (x y : Register) :
    let drawn := machine.panel.draw (machine.memory.window (machine.indexSpan within))
      (machine.number x) (machine.number y)
    RoutineTable.standard.dispatch (.ofDigits 0xD x y height) machine =
      .sending (machine.withDrawing drawn) [.redrawn drawn.1.screen] := by
  have reading : Instruction.ofOpcode? (.ofDigits 0xD x y height) = some (.draw x y height) := by
    rw [Opcode.ofOpcode?_of_draw (congrArg Fin.val (Opcode.family_ofDigits _ _ _ _))]
    simp only [Opcode.x_ofDigits, Opcode.y_ofDigits, Opcode.nibble_ofDigits]
  rw [RoutineTable.dispatch_standard reading, Instruction.execute,
    machine.spanAtIndex_of_le within]
  rfl

/-- Drawing the same sprite twice succeeds both times. The first drawing turns exactly the pixels
that the sprite covers, the second turns them back, and each shows the screen that it leaves. In the
end nothing has changed but the mark and the flag register, which tells after the first drawing of a
covered pixel that was lit, and after the second of one that was dark. As soon as any bit of the
sprite is set, it is one at least once. -/
theorem drawing_twice_restores {x y : Register} (column : x ≠ Register.flag)
    (row : y ≠ Register.flag) {height : Nibble} {machine : Machine}
    (within : machine.index.toNat + height.val ≤ 4096) :
    let opcode := Opcode.ofDigits 0xD x y height
    let first := RoutineTable.standard.dispatch opcode machine
    let second := RoutineTable.standard.dispatch opcode first.machine
    let before := machine.panel.screen
    let toggled := first.machine.panel.screen
    let covered := machine.Covers x y height
    first.failure = none ∧ second.failure = none ∧
      (∀ position, (covered position → toggled.pixel position = before.pixel position ^^^ 1) ∧
        (¬covered position → toggled.pixel position = before.pixel position)) ∧
      second.machine =
        { machine with
          registers := second.machine.registers
          panel := { screen := before, changed := true } } ∧
      (∀ register, register ≠ Register.flag →
        second.machine.register register = machine.register register) ∧
      Tells (first.machine.register Register.flag)
        (∃ position, covered position ∧ before.pixel position = 1) ∧
      Tells (second.machine.register Register.flag)
        (∃ position, covered position ∧ before.pixel position = 0) ∧
      ((∃ row < height.val, ∃ offset, machine.SpriteBit row offset) →
        first.machine.register Register.flag = 1 ∨ second.machine.register Register.flag = 1) ∧
      first.signals = [.redrawn toggled] ∧ second.signals = [.redrawn before] := by
  intro opcode first second before toggled covered
  let sprite := machine.memory.window (machine.indexSpan within)
  let once := machine.panel.draw sprite (machine.number x) (machine.number y)
  let twice := once.1.draw sprite (machine.number x) (machine.number y)
  have low : sprite.length ≤ Screen.height := by
    have bound := height.isLt
    rw [Memory.window_length, Screen.height]
    exact Nat.le_of_lt (Nat.lt_trans bound (by decide))
  have drawn : first = .sending (machine.withDrawing once) [.redrawn once.1.screen] :=
    machine.dispatch_draw within x y
  have redrawn : second =
      .sending ((machine.withDrawing once).withDrawing twice) [.redrawn twice.1.screen] := by
    have sameColumn : (machine.withDrawing once).number x = machine.number x :=
      congrArg UInt8.toNat (machine.register_withDrawing column once)
    have sameRow : (machine.withDrawing once).number y = machine.number y :=
      congrArg UInt8.toNat (machine.register_withDrawing row once)
    have again := (machine.withDrawing once).dispatch_draw within x y
    rw [sameColumn, sameRow] at again
    unfold second
    rw [drawn]
    exact again
  have restored : twice.1 = { screen := before, changed := true } :=
    Panel.ext (machine.panel.screen_draw_draw sprite _ _) rfl
  have shown : toggled = once.1.screen := congrArg (fun step => step.machine.panel.screen) drawn
  have flag : Tells (first.machine.register Register.flag)
      (∃ position, covered position ∧ before.pixel position = 1) := by
    rw [drawn]
    refine (machine.flag_withDrawing once).symm ▸ tells_ite ?_
    simp only [covered, machine.covers_iff within]
    exact machine.panel.met_draw_iff low
  have flagAgain : Tells (second.machine.register Register.flag)
      (∃ position, covered position ∧ before.pixel position = 0) := by
    rw [redrawn]
    refine ((machine.withDrawing once).flag_withDrawing twice).symm ▸ tells_ite ?_
    simp only [covered, machine.covers_iff within]
    exact machine.panel.met_draw_draw_iff low
  refine ⟨?_, ?_, ?_, ?_, ?_, flag, flagAgain, ?_, ?_, ?_⟩
  · rw [drawn]
    rfl
  · rw [redrawn]
    rfl
  · intro position
    rw [shown]
    simp only [covered, machine.covers_iff within]
    exact ⟨machine.panel.pixel_draw_of_covered low, machine.panel.pixel_draw_of_uncovered⟩
  · rw [redrawn, ← restored]
    rfl
  · intro register other
    rw [redrawn]
    exact ((machine.withDrawing once).register_withDrawing other twice).trans
      (machine.register_withDrawing other once)
  · rintro ⟨down, inside, right, set⟩
    obtain ⟨position, covers⟩ := machine.exists_covers_of_spriteBit x y height inside set
    have binary : before.pixel position = 0 ∨ before.pixel position = 1 :=
      before.binary (Screen.cell position)
    rcases binary with dark | lit
    · exact .inr (flagAgain.1.mpr ⟨position, covers, dark⟩)
    · exact .inl (flag.1.mpr ⟨position, covers, lit⟩)
  · rw [shown, drawn]
    rfl
  · rw [redrawn, restored]
    rfl

/-- The sprite of the digit zero, drawn on a dark screen, meets nothing at first and itself then. -/
theorem drawing_twice_restores_glyph :
    let machine := { Machine.initial (Entropy.seeded 0) with index := 0x50 }
    let opcode := Opcode.ofDigits 0xD 0 1 5
    let first := RoutineTable.standard.dispatch opcode machine
    let second := RoutineTable.standard.dispatch opcode first.machine
    (0 : Register) ≠ Register.flag ∧ (1 : Register) ≠ Register.flag ∧
      machine.index.toNat + (5 : Nibble).val ≤ 4096 ∧
      first.machine.register Register.flag = 0 ∧ second.machine.register Register.flag = 1 ∧
      second.machine.panel.screen = Screen.dark := by
  intro machine opcode first second
  have column : (0 : Register) ≠ Register.flag := by decide
  have row : (1 : Register) ≠ Register.flag := by decide
  have within : machine.index.toNat + (5 : Nibble).val ≤ 4096 := by decide
  obtain ⟨_, _, _, restored, _, flag, flagAgain, _⟩ :=
    drawing_twice_restores column row within
  have unlit (position : Screen.Position) : machine.panel.screen.pixel position = 0 :=
    (Screen.pixel_eq_zero_iff _ position).mpr (Screen.lit_dark _)
  have set : machine.SpriteBit 0 0 := by
    refine ⟨0xF0, ?_, by decide⟩
    exact Memory.getElem?_overwrite_offset _ 0 (by decide) rfl
  obtain ⟨position, covers⟩ := machine.exists_covers_of_spriteBit 0 1 5 (by decide) set
  have metNothing : ¬∃ position, machine.Covers 0 1 5 position ∧
      machine.panel.screen.pixel position = 1 := by
    rintro ⟨other, _, lit⟩
    rw [unlit other] at lit
    cases lit
  have screen : second.machine.panel.screen = machine.panel.screen := by
    rw [restored]
  exact ⟨column, row, within, flag.2.mpr metNothing,
    flagAgain.1.mpr ⟨position, covers, unlit position⟩, screen.trans rfl⟩

end Machine

end Chip8
