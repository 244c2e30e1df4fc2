import Chip8.Proofs.Access

/-!
A routine changes nothing outside of the places that it accesses.
-/

namespace Chip8

def Machine.content (machine : Machine) (store : Store) (position : Nat) : Option Nat :=
  match store with
  | .memory => machine.memory.cells[position]?.map UInt8.toNat
  | .registers => machine.registers[position]?.map UInt8.toNat
  | .stack => machine.stack.slots[position]?.map UInt16.toNat
  | .screen => machine.panel.screen.pixels[position]?.map UInt8.toNat

def Access.Covers (access : Access) (store : Store) (position : Nat) : Prop :=
  access.store = store ∧ access.start ≤ position ∧ position < access.start + access.count

namespace Access

theorem covers_register (index : Nat) : (register index).Covers .registers index :=
  ⟨rfl, Nat.le_refl index, Nat.lt_succ_self index⟩

theorem covers_registersUpTo {last index : Nat} (within : index ≤ last) :
    (registersUpTo last).Covers .registers index :=
  ⟨rfl, Nat.zero_le index, by rw [registersUpTo, Nat.zero_add]; exact Nat.lt_succ_of_le within⟩

theorem covers_slot (index : Nat) : (slot index).Covers .stack index :=
  ⟨rfl, Nat.le_refl index, Nat.lt_succ_self index⟩

theorem covers_pixel (index : Nat) : (pixel index).Covers .screen index :=
  ⟨rfl, Nat.le_refl index, Nat.lt_succ_self index⟩

theorem pixel_mem_sprite {sprite : List UInt8} {column row : Nat} {cell : Screen.Cell}
    (member : cell ∈ Screen.spriteCells sprite column row) :
    pixel cell.val ∈ Access.sprite column row sprite.length := by
  obtain ⟨down, below, right, inRow, place⟩ := Screen.exists_of_mem_spriteCells member
  refine List.mem_flatMap.mpr ⟨down, List.mem_range.mpr below, ?_⟩
  refine List.mem_map.mpr ⟨right, List.mem_range.mpr inRow, ?_⟩
  rw [place]
  rfl

theorem covers_wholeScreen {index : Nat} (within : index < 2048) :
    wholeScreen.Covers .screen index :=
  ⟨rfl, Nat.zero_le index, by rw [wholeScreen, Nat.zero_add]; exact within⟩

theorem covers_bytes {start count address : Nat} (low : start ≤ address)
    (high : address < start + count) : (bytes start count).Covers .memory address :=
  ⟨rfl, low, high⟩

end Access

def Machine.SameBeyond (accesses : List Access) (before after : Machine) : Prop :=
  ∀ store position, (∀ access ∈ accesses, ¬ access.Covers store position) →
    after.content store position = before.content store position

namespace Machine.SameBeyond

variable {accesses : List Access} {before between after : Machine}

theorem refl (machine : Machine) : machine.SameBeyond accesses machine :=
  fun _ _ _ => rfl

theorem of_eq (memory : after.memory = before.memory)
    (registers : after.registers = before.registers) (stack : after.stack = before.stack)
    (panel : after.panel = before.panel) : before.SameBeyond accesses after := by
  intro store position _
  simp only [content, memory, registers, stack, panel]

theorem trans (first : before.SameBeyond accesses between)
    (second : between.SameBeyond accesses after) : before.SameBeyond accesses after :=
  fun store position outside =>
    (second store position outside).trans (first store position outside)

theorem setRegister (machine : Machine) {register : Register} (value : UInt8)
    (accessed : Access.register register.val ∈ accesses) :
    machine.SameBeyond accesses (machine.setRegister register value) := by
  intro store position outside
  cases store with
  | registers =>
      have different : register.val ≠ position := by
        intro same
        exact outside _ accessed (same ▸ Access.covers_register register.val)
      simp only [content, Machine.setRegister, Vector.getElem?_set_ne register.isLt different]
  | _ => rfl

theorem overwrite (machine : Machine) {start count : Nat} {bytes : List UInt8}
    (length : bytes.length = count)
    (accessed : Access.bytes start count ∈ accesses) :
    machine.SameBeyond accesses
      { machine with memory := machine.memory.overwrite start bytes } := by
  intro store position outside
  cases store with
  | memory =>
      simp only [content]
      rw [Memory.getElem?_overwrite, if_neg]
      rintro ⟨low, high, _⟩
      rw [length] at high
      exact outside _ accessed (Access.covers_bytes low high)
  | _ => rfl

theorem fill (machine : Machine) {values : List UInt8} {last : Nat}
    (length : values.length = last + 1)
    (accessed : Access.registersUpTo last ∈ accesses) :
    machine.SameBeyond accesses
      { machine with registers := Routine.fillRegisters machine.registers values } := by
  intro store position outside
  cases store with
  | registers =>
      have beyond : values.length ≤ position := by
        rw [length]
        apply Nat.lt_of_not_le
        intro inside
        exact outside _ accessed (Access.covers_registersUpTo inside)
      simp only [content]
      by_cases within : position < 16
      · rw [Vector.getElem?_eq_getElem within, Vector.getElem?_eq_getElem within]
        simp only [Routine.fillRegisters, Vector.getElem_ofFn, List.getD_eq_getElem?_getD]
        rw [List.getElem?_eq_none beyond]
        rfl
      · rw [Vector.getElem?_eq_none (Nat.le_of_not_lt within),
          Vector.getElem?_eq_none (Nat.le_of_not_lt within)]
  | _ => simp only [content]

theorem clear (machine : Machine) (accessed : Access.wholeScreen ∈ accesses) :
    machine.SameBeyond accesses { machine with panel := machine.panel.clear } := by
  intro store position outside
  cases store with
  | screen =>
      have beyond : Screen.area ≤ position := by
        apply Nat.le_of_not_lt
        intro within
        exact outside _ accessed (Access.covers_wholeScreen within)
      simp only [content]
      rw [Vector.getElem?_eq_none beyond, Vector.getElem?_eq_none beyond]
  | _ => rfl

theorem push (machine : Machine) {address : UInt16} {stack : CallStack}
    (pushed : machine.stack.push address = .ok stack)
    (accessed : Access.slot machine.stack.depth ∈ accesses) :
    machine.SameBeyond accesses { machine with stack := stack } := by
  unfold CallStack.push at pushed
  split at pushed
  · next room =>
      cases pushed
      intro store position outside
      cases store with
      | stack =>
          have different : machine.stack.depth ≠ position := by
            intro same
            exact outside _ accessed (same ▸ Access.covers_slot machine.stack.depth)
          simp only [content, Vector.getElem?_set_ne room different]
      | _ => rfl
  · cases pushed

theorem pop (machine : Machine) {address : UInt16} {stack : CallStack}
    (popped : machine.stack.pop = .ok (address, stack)) :
    machine.SameBeyond accesses { machine with stack := stack } := by
  unfold CallStack.pop at popped
  split at popped
  · cases popped
    intro store position _
    cases store <;> rfl
  · cases popped

theorem draw (machine : Machine) {sprite : List UInt8} {column row height : Nat}
    (length : sprite.length = height)
    (accessed : ∀ access ∈ Access.sprite column row height, access ∈ accesses) :
    machine.SameBeyond accesses
      { machine with panel := (machine.panel.draw sprite column row).1 } := by
  intro store position outside
  cases store with
  | screen =>
      simp only [content, Panel.draw, Screen.stamp]
      rw [Screen.pixels_foldl_stampCell]
      intro cell member same
      have drawn := accessed _ (length ▸ Access.pixel_mem_sprite member)
      exact outside _ drawn (same ▸ Access.covers_pixel cell.val)
  | _ => rfl

end Machine.SameBeyond

namespace Routine

/-- A store is refused as a whole or lies inside the accessed bytes. -/
theorem sameBeyond_storeAtIndex (machine : Machine) {bytes : List UInt8} (count : Nat)
    {accesses : List Access} (length : bytes.length = count)
    (accessed : machine.index.toNat + count ≤ 4096 →
      Access.bytes machine.index.toNat count ∈ accesses) :
    machine.SameBeyond accesses (storeAtIndex bytes machine).machine := by
  unfold storeAtIndex Memory.write
  by_cases within : machine.index.toNat + bytes.length ≤ 4096
  · rw [Span.of_of_le within]
    exact .overwrite machine length (accessed (length ▸ within))
  · rw [Span.of_of_lt (Nat.lt_of_not_le within)]
    exact .refl machine

private theorem sameBeyond_runControl (opcode : Opcode) (machine : Machine) :
    machine.SameBeyond (Routine.control.accesses opcode machine)
      (runControl opcode machine).machine := by
  simp only [runControl, accesses]
  by_cases clears : opcode.word = 0x00E0
  · rw [if_pos clears, if_pos clears]
    exact .clear machine List.mem_cons_self
  · rw [if_neg clears, if_neg clears]
    by_cases leaves : opcode.word = 0x00EE
    · rw [if_pos leaves]
      cases popped : machine.stack.pop with
      | error fault => exact .refl machine
      | ok result => exact (Machine.SameBeyond.pop machine popped).trans (.of_eq rfl rfl rfl rfl)
    · rw [if_neg leaves]
      exact .refl machine

private theorem sameBeyond_runCall (opcode : Opcode) (machine : Machine) :
    machine.SameBeyond (Routine.call.accesses opcode machine)
      (runCall opcode machine).machine := by
  simp only [runCall, accesses]
  cases pushed : machine.stack.push machine.counter with
  | error fault => exact .refl machine
  | ok stack =>
      rw [if_pos (show machine.stack.depth < 16 from CallStack.depth_lt_of_push pushed)]
      exact (Machine.SameBeyond.push machine pushed List.mem_cons_self).trans
        (.of_eq rfl rfl rfl rfl)

private theorem sameBeyond_skipWhen (condition : Bool) (machine : Machine)
    (accesses : List Access) :
    machine.SameBeyond accesses (skipWhen condition machine).machine := by
  cases condition with
  | false => exact .refl machine
  | true => exact .of_eq rfl rfl rfl rfl

private theorem sameBeyond_runArithmetic (opcode : Opcode) (machine : Machine) :
    machine.SameBeyond (Routine.arithmetic.accesses opcode machine)
      (runArithmetic opcode machine).machine := by
  unfold runArithmetic
  cases Arithmetic.ofCode? opcode.nibble.val with
  | none => exact .refl machine
  | some operation =>
      have target : Access.register opcode.x.val ∈
          Routine.arithmetic.accesses opcode machine := List.mem_cons_self
      have flag : Access.register Register.flag.val ∈
          Routine.arithmetic.accesses opcode machine := by
        exact List.mem_cons_of_mem _ (List.mem_cons_of_mem _ List.mem_cons_self)
      dsimp only
      split
      · exact .setRegister machine _ target
      · exact (Machine.SameBeyond.setRegister machine _ flag).trans (.setRegister _ _ target)

private theorem sameBeyond_runDraw (opcode : Opcode) (machine : Machine) :
    machine.SameBeyond (Routine.draw.accesses opcode machine)
      (runDraw opcode machine).machine := by
  simp only [runDraw, accesses, Memory.slice]
  by_cases within : machine.index.toNat + opcode.nibble.val ≤ 4096
  · rw [Span.of_of_le within, if_pos within]
    refine Machine.SameBeyond.trans
      (.setRegister machine _ (show Access.register Register.flag.val ∈ _ from ?_))
      (.draw _ (Memory.window_length _ _) ?_)
    · exact List.mem_append_right _ (List.mem_cons_of_mem _ List.mem_cons_self)
    · intro access drawn
      exact List.mem_append_right _ (List.mem_cons_of_mem _ (List.mem_cons_of_mem _ drawn))
  · rw [Span.of_of_lt (Nat.lt_of_not_le within)]
    exact .refl machine

private theorem sameBeyond_runAuxiliary (opcode : Opcode) (machine : Machine) :
    machine.SameBeyond (Routine.auxiliary.accesses opcode machine)
      (runAuxiliary opcode machine).machine := by
  simp only [runAuxiliary, accesses]
  cases Auxiliary.ofCode? opcode.byte.toNat with
  | none => exact .refl machine
  | some operation =>
      cases operation with
      | readDelay => exact .setRegister machine _ List.mem_cons_self
      | awaitKey =>
          simp only [runAwaitKey]
          cases machine.keypad.lowest? with
          | none => exact .of_eq rfl rfl rfl rfl
          | some key => exact .setRegister machine _ List.mem_cons_self
      | setDelay => exact .of_eq rfl rfl rfl rfl
      | setSound => exact .of_eq rfl rfl rfl rfl
      | addIndex => exact .of_eq rfl rfl rfl rfl
      | pointGlyph => exact .of_eq rfl rfl rfl rfl
      | storeDecimal =>
          apply sameBeyond_storeAtIndex machine 3 rfl
          intro within
          dsimp only
          rw [if_pos within]
          exact List.mem_cons_of_mem _ List.mem_cons_self
      | saveRegisters =>
          apply sameBeyond_storeAtIndex machine _ (length_take_registers machine opcode.x)
          intro within
          dsimp only
          rw [if_pos within]
          exact List.mem_cons_self
      | restoreRegisters =>
          simp only [runRestore, Memory.slice]
          by_cases within : machine.index.toNat + (opcode.x.val + 1) ≤ 4096
          · rw [Span.of_of_le within, if_pos within]
            exact .fill machine (Memory.window_length _ _)
              (List.mem_cons_of_mem _ List.mem_cons_self)
          · rw [Span.of_of_lt (Nat.lt_of_not_le within)]
            exact .refl machine

/-- A routine changes no place that it does not access. -/
theorem sameBeyond_perform (routine : Routine) (opcode : Opcode) (machine : Machine) :
    machine.SameBeyond (routine.accesses opcode machine)
      (routine.perform opcode machine).machine := by
  cases routine with
  | control => exact sameBeyond_runControl opcode machine
  | jump => exact .of_eq rfl rfl rfl rfl
  | call => exact sameBeyond_runCall opcode machine
  | skipEqualByte => exact sameBeyond_skipWhen _ machine _
  | skipUnequalByte => exact sameBeyond_skipWhen _ machine _
  | skipEqualRegister =>
      simp only [perform, runSkipEqualRegister]
      split
      · exact .refl machine
      · exact sameBeyond_skipWhen _ machine _
  | loadByte => exact .setRegister machine _ List.mem_cons_self
  | addByte => exact .setRegister machine _ List.mem_cons_self
  | arithmetic => exact sameBeyond_runArithmetic opcode machine
  | skipUnequalRegister =>
      simp only [perform, runSkipUnequalRegister]
      split
      · exact .refl machine
      · exact sameBeyond_skipWhen _ machine _
  | loadIndex => exact .of_eq rfl rfl rfl rfl
  | jumpOffset => exact .of_eq rfl rfl rfl rfl
  | random =>
      exact Machine.SameBeyond.trans (.of_eq rfl rfl rfl rfl)
        (.setRegister _ _ List.mem_cons_self)
  | draw => exact sameBeyond_runDraw opcode machine
  | skipKey =>
      simp only [perform, runSkipKey]
      split
      · exact sameBeyond_skipWhen _ machine _
      · split
        · exact sameBeyond_skipWhen _ machine _
        · exact .refl machine
  | auxiliary => exact sameBeyond_runAuxiliary opcode machine

end Routine

end Chip8
