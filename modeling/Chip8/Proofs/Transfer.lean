import Chip8.Proofs.Meaning

/-!
Blocks of bytes between registers and memory. What is saved comes back, what is restored can be
saved again without a trace, and the decimal digits of a register account for its value. Every
transfer touches its own block only, and one that does not fit touches nothing.
-/

namespace Chip8

/-- The bytes of two memories differ at most from a start on, for a length. -/
def Memory.DiffersWithin (one other : Memory) (start length : Nat) : Prop :=
  ∀ address, ¬(start ≤ address ∧ address < start + length) →
    one.cells[address]? = other.cells[address]?

theorem Memory.differsWithin_overwrite (memory : Memory) (start : Nat) (bytes : List UInt8) :
    (memory.overwrite start bytes).DiffersWithin memory start bytes.length := by
  intro address outside
  rw [getElem?_overwrite, if_neg]
  intro inside
  exact outside ⟨inside.1, inside.2.1⟩

private theorem decimalDigits_spec {value : Nat} (small : value < 1000) :
    ∃ hundreds tens ones, decimalDigits value = [hundreds, tens, ones] ∧
      hundreds ≤ 9 ∧ tens ≤ 9 ∧ ones ≤ 9 ∧ 100 * hundreds + 10 * tens + ones = value := by
  refine ⟨value / 100, value / 10 % 10, value % 10, rfl, ?_, ?_, ?_, ?_⟩ <;> omega

namespace Machine

variable (machine : Machine) (last : Register)

/-! ### Register files and lists of bytes -/

def registersUpTo : List UInt8 := ((List.finRange 16).take (last.val + 1)).map machine.register

def withRegisters (values : List UInt8) : Machine :=
  { machine with
    registers := Vector.ofFn fun register =>
      values.getD register.val (machine.register register) }

theorem register_withRegisters (values : List UInt8) (register : Register) :
    (machine.withRegisters values).register register =
      values.getD register.val (machine.register register) := by
  simp [withRegisters, Machine.register]

theorem getElem?_registersUpTo (register : Register) :
    (machine.registersUpTo last)[register.val]? =
      if register ≤ last then some (machine.register register) else none := by
  rw [registersUpTo, List.getElem?_map, List.getElem?_take]
  by_cases upTo : register ≤ last
  · rw [if_pos upTo, if_pos (Nat.lt_succ_of_le upTo)]
    simp
  · rw [if_neg upTo, if_neg (fun less => upTo (Nat.le_of_lt_succ less))]
    rfl

private theorem register_withRegisters_registersUpTo (register : Register) (between : Machine) :
    (between.withRegisters (machine.registersUpTo last)).register register =
      if register ≤ last then machine.register register else between.register register := by
  rw [register_withRegisters, List.getD_eq_getElem?_getD, getElem?_registersUpTo]
  split <;> rfl

private theorem registersUpTo_withRegisters {values : List UInt8}
    (length : values.length = last.val + 1) :
    (machine.withRegisters values).registersUpTo last = values := by
  apply List.ext_getElem?
  intro position
  have bound := last.isLt
  by_cases within : position < values.length
  · have register := (machine.withRegisters values).getElem?_registersUpTo last
      ⟨position, by omega⟩
    have upTo : (⟨position, by omega⟩ : Register) ≤ last :=
      Nat.le_of_lt_succ (Nat.lt_of_lt_of_eq within length)
    rw [if_pos upTo, register_withRegisters, List.getD_eq_getElem?_getD,
      List.getElem?_eq_getElem within] at register
    rw [List.getElem?_eq_getElem within]
    exact register
  · have beyond := Nat.le_of_not_lt within
    rw [List.getElem?_eq_none beyond, List.getElem?_eq_none]
    rw [registersUpTo, Chip8.length_registersUpTo]
    exact length ▸ beyond

/-! ### The transfers -/

private theorem dispatch_save (within : machine.index.toNat + (last.val + 1) ≤ memorySize) :
    RoutineTable.standard.dispatch (.ofDigits 0xF last 5 5) machine =
      .quiet
        { machine with
          memory :=
            machine.memory.overwrite machine.index.toNat (machine.registersUpTo last) } := by
  rw [RoutineTable.dispatch_auxiliary .saveRegisters last rfl, Auxiliary.execute,
    machine.spanAtIndex_of_le within]
  rfl

private theorem dispatch_restore (within : machine.index.toNat + (last.val + 1) ≤ memorySize) :
    RoutineTable.standard.dispatch (.ofDigits 0xF last 6 5) machine =
      .quiet (machine.withRegisters (machine.memory.window (machine.indexSpan within))) := by
  rw [RoutineTable.dispatch_auxiliary .restoreRegisters last rfl, Auxiliary.execute,
    machine.spanAtIndex_of_le within]
  rfl

private theorem dispatch_decimal (within : machine.index.toNat + 3 ≤ memorySize) :
    RoutineTable.standard.dispatch (.ofDigits 0xF last 3 3) machine =
      .quiet
        { machine with
          memory := machine.memory.overwrite machine.index.toNat
            ((decimalDigits (machine.number last)).map UInt8.ofNat) } := by
  rw [RoutineTable.dispatch_auxiliary .storeDecimal last rfl, Auxiliary.execute,
    machine.spanAtIndex_of_le within]
  rfl

private theorem dispatch_beyond :
    (4096 < machine.index.toNat + last.val + 1 →
      RoutineTable.standard.dispatch (.ofDigits 0xF last 5 5) machine =
          .failing machine (.addressOutOfBounds (machine.index.toNat + last.val)) ∧
        RoutineTable.standard.dispatch (.ofDigits 0xF last 6 5) machine =
          .failing machine (.addressOutOfBounds (machine.index.toNat + last.val))) ∧
      (4096 < machine.index.toNat + 3 →
        RoutineTable.standard.dispatch (.ofDigits 0xF last 3 3) machine =
          .failing machine (.addressOutOfBounds (machine.index.toNat + 2))) := by
  refine ⟨fun beyond => ⟨?_, ?_⟩, fun beyond => ?_⟩
  · rw [RoutineTable.dispatch_auxiliary .saveRegisters last rfl, Auxiliary.execute,
      machine.spanAtIndex_of_lt beyond]
  · rw [RoutineTable.dispatch_auxiliary .restoreRegisters last rfl, Auxiliary.execute,
      machine.spanAtIndex_of_lt beyond]
  · rw [RoutineTable.dispatch_auxiliary .storeDecimal last rfl, Auxiliary.execute,
      machine.spanAtIndex_of_lt beyond]

/-- Saving puts every register up to the last one in its place and touches nothing else. -/
theorem save_spec (within : machine.index.toNat + (last.val + 1) ≤ memorySize) :
    let saved := RoutineTable.standard.dispatch (.ofDigits 0xF last 5 5) machine
    saved = .quiet { machine with memory := saved.machine.memory } ∧
      (∀ register ≤ last, saved.machine.memory.cells[machine.index.toNat + register.val]? =
        some (machine.register register)) ∧
      saved.machine.memory.DiffersWithin machine.memory machine.index.toNat (last.val + 1) := by
  intro saved
  have step : saved = _ := machine.dispatch_save last within
  rw [step]
  refine ⟨rfl, ?_, ?_⟩
  · intro register upTo
    have place : register.val ≤ last.val := upTo
    apply machine.memory.getElem?_overwrite_offset
    · exact Nat.lt_of_lt_of_le (by omega) within
    · rw [getElem?_registersUpTo, if_pos upTo]
  · have outside := machine.memory.differsWithin_overwrite machine.index.toNat
      (machine.registersUpTo last)
    rw [registersUpTo, length_registersUpTo] at outside
    exact outside

theorem restore_of_overwritten {bytes : List UInt8} (length : bytes.length = last.val + 1)
    (within : machine.index.toNat + (last.val + 1) ≤ memorySize) {memory : Memory}
    (written : machine.memory = memory.overwrite machine.index.toNat bytes) :
    RoutineTable.standard.dispatch (.ofDigits 0xF last 6 5) machine =
      .quiet (machine.withRegisters bytes) := by
  have shown : machine.memory.window (machine.indexSpan within) = bytes := by
    rw [written]
    exact memory.window_overwrite length
  rw [machine.dispatch_restore last within, shown]

private theorem save_of_restored (within : machine.index.toNat + (last.val + 1) ≤ memorySize) :
    let restored := RoutineTable.standard.dispatch (.ofDigits 0xF last 6 5) machine
    RoutineTable.standard.dispatch (.ofDigits 0xF last 5 5) restored.machine =
      .quiet restored.machine := by
  intro restored
  let values := machine.memory.window (machine.indexSpan within)
  have step : restored = .quiet (machine.withRegisters values) :=
    machine.dispatch_restore last within
  have length : values.length = last.val + 1 := machine.memory.window_length _
  have same : machine.memory.overwrite machine.index.toNat values = machine.memory :=
    machine.memory.overwrite_window (machine.indexSpan within)
  rw [step]
  have saved := (machine.withRegisters values).dispatch_save last within
  rw [machine.registersUpTo_withRegisters last length] at saved
  refine saved.trans (congrArg Step.quiet ?_)
  exact congrArg (fun memory => { machine.withRegisters values with memory := memory }) same

/-- The digits of a register land at the index, add up to its value and can be loaded from there. -/
theorem decimal_spec (within : machine.index.toNat + 3 ≤ memorySize) :
    let stored := RoutineTable.standard.dispatch (.ofDigits 0xF last 3 3) machine
    let loaded := RoutineTable.standard.dispatch (.ofDigits 0xF 2 6 5) stored.machine
    stored = .quiet { machine with memory := stored.machine.memory } ∧
      stored.machine.memory.DiffersWithin machine.memory machine.index.toNat 3 ∧
      ∃ hundreds tens ones : UInt8,
        stored.machine.memory.cells[machine.index.toNat]? = some hundreds ∧
        stored.machine.memory.cells[machine.index.toNat + 1]? = some tens ∧
        stored.machine.memory.cells[machine.index.toNat + 2]? = some ones ∧
        hundreds.toNat ≤ 9 ∧ tens.toNat ≤ 9 ∧ ones.toNat ≤ 9 ∧
        100 * hundreds.toNat + 10 * tens.toNat + ones.toNat = machine.number last ∧
        loaded = .quiet { stored.machine with registers := loaded.machine.registers } ∧
        loaded.machine.register 0 = hundreds ∧ loaded.machine.register 1 = tens ∧
        loaded.machine.register 2 = ones ∧
        ∀ register, 2 < register →
          loaded.machine.register register = machine.register register := by
  intro stored loaded
  have bound : machine.number last < 256 := (machine.register last).toNat_lt
  obtain ⟨hundreds, tens, ones, digits, hundredsSmall, tensSmall, onesSmall, sum⟩ :=
    decimalDigits_spec (Nat.lt_trans bound (show 256 < 1000 by decide))
  let bytes := [UInt8.ofNat hundreds, UInt8.ofNat tens, UInt8.ofNat ones]
  let memory := machine.memory.overwrite machine.index.toNat bytes
  have step : stored = .quiet { machine with memory := memory } := by
    have step := machine.dispatch_decimal last within
    rw [digits] at step
    exact step
  have restored : loaded = .quiet ({ machine with memory := memory }.withRegisters bytes) := by
    unfold loaded
    rw [step]
    exact { machine with memory := memory }.restore_of_overwritten 2 rfl within rfl
  have small {digit : Nat} (upTo : digit ≤ 9) : (UInt8.ofNat digit).toNat = digit :=
    UInt8.toNat_ofNat_of_lt' (Nat.lt_of_le_of_lt upTo (by decide))
  have byte (offset : Nat) (upTo : offset < 3) {value : UInt8}
      (present : bytes[offset]? = some value) :
      memory.cells[machine.index.toNat + offset]? = some value :=
    machine.memory.getElem?_overwrite_offset offset (by omega) present
  rw [restored, step]
  refine ⟨rfl, machine.memory.differsWithin_overwrite machine.index.toNat bytes,
    .ofNat hundreds, .ofNat tens, .ofNat ones, byte 0 (by decide) rfl, byte 1 (by decide) rfl,
    byte 2 (by decide) rfl, ?_, ?_, ?_, ?_, rfl, ?_, ?_, ?_, ?_⟩
  · rw [small hundredsSmall]
    exact hundredsSmall
  · rw [small tensSmall]
    exact tensSmall
  · rw [small onesSmall]
    exact onesSmall
  · rw [small hundredsSmall, small tensSmall, small onesSmall]
    exact sum
  · exact register_withRegisters _ bytes 0
  · exact register_withRegisters _ bytes 1
  · exact register_withRegisters _ bytes 2
  · intro register later
    have beyond : bytes.length ≤ register.val := later
    refine (register_withRegisters _ bytes register).trans ?_
    rw [List.getD_eq_getElem?_getD, List.getElem?_eq_none beyond]
    rfl

/-- Blocks of registers and decimal digits go to memory and come back without loss, and a transfer
changes its own block only. Where the block does not fit, nothing at all changes. -/
theorem block_transfers_lossless (machine : Machine) (last : Register) :
    let start := machine.index.toNat
    let perform := RoutineTable.standard.dispatch
    let save := Opcode.ofDigits 0xF last 5 5
    let restore := Opcode.ofDigits 0xF last 6 5
    let saved := perform save machine
    let restored := perform restore machine
    let stored := perform (.ofDigits 0xF last 3 3) machine
    let loaded := perform (.ofDigits 0xF 2 6 5) stored.machine
    (start + last.val + 1 ≤ 4096 →
      (saved = .quiet { machine with memory := saved.machine.memory } ∧
        (∀ register ≤ last, saved.machine.memory.cells[start + register.val]? =
          some (machine.register register)) ∧
        saved.machine.memory.DiffersWithin machine.memory start (last.val + 1)) ∧
      (∀ between : Machine, between.index = machine.index →
        between.memory = saved.machine.memory →
        let returned := perform restore between
        returned = .quiet { between with registers := returned.machine.registers } ∧
          ∀ register, returned.machine.register register =
            if register ≤ last then machine.register register else between.register register) ∧
      (restored = .quiet { machine with registers := restored.machine.registers } ∧
        perform save restored.machine = .quiet restored.machine)) ∧
      (start + 3 ≤ 4096 →
        stored = .quiet { machine with memory := stored.machine.memory } ∧
          stored.machine.memory.DiffersWithin machine.memory start 3 ∧
          ∃ hundreds tens ones : UInt8,
            stored.machine.memory.cells[start]? = some hundreds ∧
            stored.machine.memory.cells[start + 1]? = some tens ∧
            stored.machine.memory.cells[start + 2]? = some ones ∧
            hundreds.toNat ≤ 9 ∧ tens.toNat ≤ 9 ∧ ones.toNat ≤ 9 ∧
            100 * hundreds.toNat + 10 * tens.toNat + ones.toNat = machine.number last ∧
            loaded = .quiet { stored.machine with registers := loaded.machine.registers } ∧
            loaded.machine.register 0 = hundreds ∧ loaded.machine.register 1 = tens ∧
            loaded.machine.register 2 = ones ∧
            ∀ register, 2 < register →
              loaded.machine.register register = machine.register register) ∧
      (4096 < start + last.val + 1 →
        saved = .failing machine (.addressOutOfBounds (start + last.val)) ∧
          restored = .failing machine (.addressOutOfBounds (start + last.val))) ∧
      (4096 < start + 3 → stored = .failing machine (.addressOutOfBounds (start + 2))) := by
  intro start perform save restore saved restored stored loaded
  obtain ⟨blockBeyond, decimalBeyond⟩ := machine.dispatch_beyond last
  refine ⟨fun within => ⟨machine.save_spec last within, ?_, ?_, ?_⟩,
    machine.decimal_spec last, blockBeyond, decimalBeyond⟩
  · intro between index memory returned
    have written : saved = _ := machine.dispatch_save last within
    rw [written, ← index] at memory
    have inside : between.index.toNat + (last.val + 1) ≤ memorySize := index ▸ within
    have step : returned = .quiet (between.withRegisters (machine.registersUpTo last)) :=
      between.restore_of_overwritten last (length_registersUpTo machine last) inside memory
    rw [step]
    refine ⟨rfl, fun register => ?_⟩
    exact machine.register_withRegisters_registersUpTo last register between
  · have step : restored = _ := machine.dispatch_restore last within
    rw [step]
    rfl
  · exact machine.save_of_restored last within

end Machine

end Chip8
