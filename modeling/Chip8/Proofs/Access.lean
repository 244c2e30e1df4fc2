import Chip8.Routine.Basic

/-!
The places that a routine reads or writes, as plain positions in the stores of the machine. A
checked access counts from the moment its check has passed.
-/

namespace Chip8

inductive Store
  | memory
  | registers
  | stack
  | screen
  deriving DecidableEq, Repr

def Store.size : Store → Nat
  | .memory => 4096
  | .registers => 16
  | .stack => 16
  | .screen => 2048

structure Access where
  store : Store
  start : Nat
  count : Nat
  deriving DecidableEq, Repr

namespace Access

def InRange (access : Access) : Prop := access.start + access.count ≤ access.store.size

def register (index : Nat) : Access :=
  { store := .registers
    start := index
    count := 1 }

def slot (index : Nat) : Access :=
  { store := .stack
    start := index
    count := 1 }

def pixel (index : Nat) : Access :=
  { store := .screen
    start := index
    count := 1 }

def bytes (start count : Nat) : Access :=
  { store := .memory
    start := start
    count := count }

def wholeScreen : Access :=
  { store := .screen
    start := 0
    count := 2048 }

def registersUpTo (last : Nat) : Access :=
  { store := .registers
    start := 0
    count := last + 1 }

/-- The pixels below a sprite of a height, whichever of its bits are set. -/
def sprite (column row height : Nat) : List Access :=
  (List.range height).flatMap fun down =>
    (List.range 8).map fun right => pixel ((row + down) % 32 * 64 + (column + right) % 64)

end Access

/-- What a routine reads or writes when it carries out an opcode. -/
def Routine.accesses (opcode : Opcode) (machine : Machine) : Routine → List Access
  | .control =>
      if opcode.word = 0x00E0 then [.wholeScreen]
      else if opcode.word = 0x00EE ∧ 0 < machine.stack.depth then
        [.slot (machine.stack.depth - 1)]
      else []
  | .jump => []
  | .call => if machine.stack.depth < 16 then [.slot machine.stack.depth] else []
  | .skipEqualByte => [.register opcode.x.val]
  | .skipUnequalByte => [.register opcode.x.val]
  | .skipEqualRegister =>
      if opcode.nibble.val = 0 then [.register opcode.x.val, .register opcode.y.val] else []
  | .loadByte => [.register opcode.x.val]
  | .addByte => [.register opcode.x.val]
  | .arithmetic => [.register opcode.x.val, .register opcode.y.val, .register 15]
  | .skipUnequalRegister =>
      if opcode.nibble.val = 0 then [.register opcode.x.val, .register opcode.y.val] else []
  | .loadIndex => []
  | .jumpOffset => [.register 0]
  | .random => [.register opcode.x.val]
  | .draw =>
      let column := (machine.register opcode.x).toNat
      let row := (machine.register opcode.y).toNat
      let height := opcode.nibble.val
      [.register opcode.x.val, .register opcode.y.val] ++
        if machine.index.toNat + height ≤ 4096 then
          .bytes machine.index.toNat height :: .register 15 :: Access.sprite column row height
        else []
  | .skipKey => [.register opcode.x.val]
  | .auxiliary =>
      match Auxiliary.ofCode? opcode.byte.toNat with
      | none => []
      | some .storeDecimal =>
          .register opcode.x.val ::
            if machine.index.toNat + 3 ≤ 4096 then [.bytes machine.index.toNat 3] else []
      | some .saveRegisters | some .restoreRegisters =>
          if machine.index.toNat + (opcode.x.val + 1) ≤ 4096 then
            [.bytes machine.index.toNat (opcode.x.val + 1), .registersUpTo opcode.x.val]
          else []
      | some _ => [.register opcode.x.val]

namespace Access

private theorem inRange_register (register : Register) : (Access.register register.val).InRange :=
  Nat.succ_le_of_lt register.isLt

private theorem inRange_sprite (column row height : Nat) :
    ∀ access ∈ sprite column row height, access.InRange := by
  intro access member
  obtain ⟨down, _, inRow⟩ := List.mem_flatMap.mp member
  obtain ⟨right, _, same⟩ := List.mem_map.mp inRow
  rw [← same]
  change (row + down) % 32 * 64 + (column + right) % 64 + 1 ≤ 2048
  omega

end Access

namespace Routine

theorem inRange_accesses (routine : Routine) (opcode : Opcode) (machine : Machine) :
    ∀ access ∈ routine.accesses opcode machine, access.InRange := by
  have depthBound := machine.stack.depth_le
  have x := Access.inRange_register opcode.x
  have y := Access.inRange_register opcode.y
  have onlyX : ∀ access ∈ [Access.register opcode.x.val], access.InRange :=
    List.forall_mem_singleton.mpr x
  have both : ∀ access ∈ [Access.register opcode.x.val, .register opcode.y.val],
      access.InRange := List.forall_mem_cons.mpr ⟨x, List.forall_mem_singleton.mpr y⟩
  have flag : (Access.register 15).InRange := show 15 + 1 ≤ 16 by decide
  have block : ∀ access ∈
      (if machine.index.toNat + (opcode.x.val + 1) ≤ 4096 then
        [Access.bytes machine.index.toNat (opcode.x.val + 1), .registersUpTo opcode.x.val]
      else []), access.InRange := by
    split
    · next within =>
        have upTo : (Access.registersUpTo opcode.x.val).InRange :=
          Nat.le_trans (Nat.le_of_eq (Nat.zero_add _)) x
        exact List.forall_mem_cons.mpr ⟨within, List.forall_mem_singleton.mpr upTo⟩
    · exact List.forall_mem_nil _
  rw [callCapacity] at depthBound
  cases routine with
  | control =>
      simp only [accesses]
      split
      · exact List.forall_mem_singleton.mpr (Nat.le_refl 2048)
      · split
        · next leaves =>
            have active := leaves.2
            have last : machine.stack.depth - 1 + 1 ≤ 16 := by omega
            exact List.forall_mem_singleton.mpr last
        · exact List.forall_mem_nil _
  | jump => exact List.forall_mem_nil _
  | call =>
      simp only [accesses]
      split
      · next room => exact List.forall_mem_singleton.mpr (Nat.succ_le_of_lt room)
      · exact List.forall_mem_nil _
  | skipEqualByte => exact onlyX
  | skipUnequalByte => exact onlyX
  | skipEqualRegister =>
      simp only [accesses]
      split
      · exact both
      · exact List.forall_mem_nil _
  | loadByte => exact onlyX
  | addByte => exact onlyX
  | arithmetic => exact List.forall_mem_cons.mpr ⟨x, List.forall_mem_cons.mpr ⟨y,
      List.forall_mem_singleton.mpr flag⟩⟩
  | skipUnequalRegister =>
      simp only [accesses]
      split
      · exact both
      · exact List.forall_mem_nil _
  | loadIndex => exact List.forall_mem_nil _
  | jumpOffset => exact List.forall_mem_singleton.mpr (show 0 + 1 ≤ 16 by decide)
  | random => exact onlyX
  | draw =>
      simp only [accesses]
      refine List.forall_mem_append.mpr ⟨both, ?_⟩
      split
      · next within =>
          exact List.forall_mem_cons.mpr ⟨within,
            List.forall_mem_cons.mpr ⟨flag, Access.inRange_sprite _ _ _⟩⟩
      · exact List.forall_mem_nil _
  | skipKey => exact onlyX
  | auxiliary =>
      simp only [accesses]
      split
      · exact List.forall_mem_nil _
      · refine List.forall_mem_cons.mpr ⟨x, ?_⟩
        split
        · next within => exact List.forall_mem_singleton.mpr within
        · exact List.forall_mem_nil _
      · exact block
      · exact block
      · exact onlyX

end Routine

end Chip8
