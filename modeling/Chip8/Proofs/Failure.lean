import Chip8.Emulator.History
import Chip8.Proofs.Effect

/-!
Exactly when a cycle under the full table fails, with which cause, and what it leaves behind.
Whatever an instruction can be refused for is checked before its first change, so the failure of an
instruction is the failure of its check.
-/

namespace Chip8

def Fault.of? {α : Type} : Except Fault α → Option Fault
  | .error fault => some fault
  | .ok _ => none

private theorem Fault.of?_eq_some_iff {α : Type} {outcome : Except Fault α} {fault : Fault} :
    Fault.of? outcome = some fault ↔ outcome = .error fault := by
  cases outcome with
  | error cause => simp only [of?, Option.some.injEq, Except.error.injEq]
  | ok value => simp only [of?, reduceCtorEq]

namespace Instruction

def extent? : Instruction → Option Nat
  | .draw _ _ height => some height.val
  | .auxiliary .storeDecimal _ => some 3
  | .auxiliary .saveRegisters x => some (x.val + 1)
  | .auxiliary .restoreRegisters x => some (x.val + 1)
  | _ => none

def check? (machine : Machine) : Instruction → Option Fault
  | .leave => Fault.of? machine.stack.pop
  | .call _ => Fault.of? (machine.stack.push machine.counter)
  | instruction => instruction.extent?.bind fun length => Fault.of? (machine.spanAtIndex length)

private theorem failure_execute (instruction : Instruction) (machine : Machine) :
    (instruction.execute machine).failure = instruction.check? machine := by
  cases instruction with
  | leave =>
      simp only [execute, check?]
      cases machine.stack.pop <;> rfl
  | call target =>
      simp only [execute, check?]
      cases machine.stack.push machine.counter <;> rfl
  | draw x y height =>
      simp only [execute, check?, extent?, Option.bind_some]
      cases machine.spanAtIndex height.val <;> rfl
  | auxiliary operation x =>
      cases operation with
      | awaitKey =>
          simp only [execute, Auxiliary.execute]
          cases machine.keypad.lowest? <;> rfl
      | storeDecimal =>
          simp only [execute, Auxiliary.execute, check?, extent?, Option.bind_some]
          cases machine.spanAtIndex 3 <;> rfl
      | saveRegisters =>
          simp only [execute, Auxiliary.execute, check?, extent?, Option.bind_some]
          cases machine.spanAtIndex (x.val + 1) <;> rfl
      | restoreRegisters =>
          simp only [execute, Auxiliary.execute, check?, extent?, Option.bind_some]
          cases machine.spanAtIndex (x.val + 1) <;> rfl
      | _ => rfl
  | _ => rfl

end Instruction

/-! ### Words that are refused -/

/-- How many bytes from the index on a word reads or writes, read off its digits. -/
def blockLength? (word : Nat) : Option Nat :=
  if word / 4096 = 0xD then some (word % 16)
  else if word / 4096 = 0xF ∧ word % 256 = 0x33 then some 3
  else if word / 4096 = 0xF ∧ (word % 256 = 0x55 ∨ word % 256 = 0x65) then
    some (word / 256 % 16 + 1)
  else none

/-- Why a word is refused, for the depth of the stack and the index of the machine. -/
inductive Obstacle (depth index word : Nat) : Fault → Prop
  | leaving (leaves : word = 0x00EE) (inactive : depth = 0) :
      Obstacle depth index word .stackUnderflow
  | calling (calls : word / 4096 = 0x2) (full : depth = 16) :
      Obstacle depth index word (.stackOverflow 16)
  | reaching (length : Nat) (block : blockLength? word = some length)
      (beyond : 4096 < index + length) :
      Obstacle depth index word (.addressOutOfBounds (index + max length 1 - 1))

def Machine.check? (machine : Machine) (word : Nat) : Option Fault :=
  if word = 0x00EE then Fault.of? machine.stack.pop
  else if word / 4096 = 0x2 then Fault.of? (machine.stack.push machine.counter)
  else (blockLength? word).bind fun length => Fault.of? (machine.spanAtIndex length)

theorem blockLength?_eq_none {word : Nat} (small : word / 4096 ≠ 0xD ∧ word / 4096 ≠ 0xF) :
    blockLength? word = none := by
  rw [blockLength?, if_neg (by omega), if_neg (by omega), if_neg (by omega)]

namespace Machine

private theorem check?_eq_none {machine : Machine} {opcode : Opcode} {family : Nat}
    (group : opcode.family.val = family)
    (harmless : family ≠ 0x0 ∧ family ≠ 0x2 ∧ family ≠ 0xD ∧ family ≠ 0xF) :
    machine.check? opcode.word.toNat = none := by
  rw [opcode.family_val] at group
  rw [check?, if_neg (by omega), if_neg (by omega), blockLength?_eq_none (by omega)]
  rfl

private theorem check?_systemWord (machine : Machine) {opcode : Opcode}
    (group : opcode.family.val = 0x0) :
    (Instruction.ofSystemWord opcode).check? machine = machine.check? opcode.word.toNat := by
  rw [opcode.family_val] at group
  rw [Instruction.ofSystemWord, check?]
  by_cases leaves : opcode.word = 0x00EE
  · have clears : opcode.word ≠ 0x00E0 := by
      rw [leaves]
      decide
    have number : opcode.word.toNat = 0x00EE := congrArg UInt16.toNat leaves
    rw [if_neg clears, if_pos leaves, if_pos number]
    rfl
  · have other : opcode.word.toNat ≠ 0x00EE :=
      fun same => leaves (UInt16.toNat_inj.mp same)
    have elsewhere : opcode.word.toNat / 4096 ≠ 0x2 := by omega
    rw [if_neg leaves, if_neg other, if_neg elsewhere, blockLength?_eq_none (by omega)]
    split <;> rfl

private theorem check?_auxiliary (machine : Machine) {opcode : Opcode}
    (group : opcode.family.val = 0xF) :
    ((Auxiliary.ofCode? opcode.byte.toNat).map fun operation =>
        Instruction.auxiliary operation opcode.x).bind (Instruction.check? machine) =
      machine.check? opcode.word.toNat := by
  rw [opcode.family_val] at group
  have code := opcode.byte_toNat
  rw [check?, if_neg (by omega), if_neg (by omega), blockLength?, if_neg (by omega)]
  cases found : Auxiliary.ofCode? opcode.byte.toNat with
  | none =>
      have absent (operation : Auxiliary) : operation.code ≠ opcode.byte.toNat := by
        intro same
        rw [Auxiliary.ofCode?_eq_some_iff.mpr same] at found
        cases found
      have decimal := absent .storeDecimal
      have save := absent .saveRegisters
      have restore := absent .restoreRegisters
      simp only [Auxiliary.code] at decimal save restore
      rw [if_neg (by omega), if_neg (by omega)]
      rfl
  | some operation =>
      have same := Auxiliary.ofCode?_eq_some_iff.mp found
      cases operation with
      | storeDecimal =>
          simp only [Auxiliary.code] at same
          rw [if_pos (by omega)]
          rfl
      | saveRegisters =>
          simp only [Auxiliary.code] at same
          rw [if_neg (by omega), if_pos (by omega)]
          rfl
      | restoreRegisters =>
          simp only [Auxiliary.code] at same
          rw [if_neg (by omega), if_pos (by omega)]
          rfl
      | _ =>
          simp only [Auxiliary.code] at same
          rw [if_neg (by omega), if_neg (by omega)]
          rfl

/-- The checks of a word are those of the instruction that it stands for. -/
theorem check?_word (machine : Machine) (opcode : Opcode) :
    (Instruction.ofOpcode? opcode).bind (Instruction.check? machine) =
      machine.check? opcode.word.toNat := by
  unfold Instruction.ofOpcode?
  split
  · next family => exact machine.check?_systemWord family
  · next family => exact (check?_eq_none family (by decide)).symm
  · next family =>
      rw [opcode.family_val] at family
      rw [check?, if_neg (by omega), if_pos family]
      rfl
  · next family => exact (check?_eq_none family (by decide)).symm
  · next family => exact (check?_eq_none family (by decide)).symm
  · next family =>
      rw [check?_eq_none family (by decide)]
      split <;> rfl
  · next family => exact (check?_eq_none family (by decide)).symm
  · next family => exact (check?_eq_none family (by decide)).symm
  · next family =>
      rw [check?_eq_none family (by decide)]
      cases Arithmetic.ofCode? opcode.nibble.val <;> rfl
  · next family =>
      rw [check?_eq_none family (by decide)]
      split <;> rfl
  · next family => exact (check?_eq_none family (by decide)).symm
  · next family => exact (check?_eq_none family (by decide)).symm
  · next family => exact (check?_eq_none family (by decide)).symm
  · next family =>
      have height := opcode.nibble_val
      rw [opcode.family_val] at family
      rw [check?, if_neg (by omega), if_neg (by omega), blockLength?, if_pos family, ← height]
      rfl
  · next family =>
      rw [check?_eq_none family (by decide), Instruction.ofKeyWord?]
      split
      · rfl
      · split <;> rfl
  · have bound := opcode.family.isLt
    apply machine.check?_auxiliary
    grind

/-- A word is refused exactly where it meets an obstacle. -/
theorem failure_obey_iff (machine : Machine) {opcode : Opcode} {fault : Fault} :
    (machine.obey opcode (Instruction.ofOpcode? opcode)).failure = some fault ↔
      Obstacle machine.stack.depth machine.index.toNat opcode.word.toNat fault := by
  have checked : (machine.obey opcode (Instruction.ofOpcode? opcode)).failure =
      machine.check? opcode.word.toNat := by
    rw [← check?_word]
    cases Instruction.ofOpcode? opcode with
    | none => rfl
    | some instruction => exact instruction.failure_execute machine
  rw [checked, check?]
  constructor
  · intro failed
    split at failed
    · next leaves =>
        obtain ⟨inactive, cause⟩ :=
          CallStack.pop_eq_error_iff.mp (Fault.of?_eq_some_iff.mp failed)
        rw [cause]
        exact .leaving leaves inactive
    · split at failed
      · next calls =>
          obtain ⟨full, cause⟩ :=
            CallStack.push_eq_error_iff.mp (Fault.of?_eq_some_iff.mp failed)
          rw [cause]
          exact .calling calls full
      · obtain ⟨length, block, outside⟩ := Option.bind_eq_some_iff.mp failed
        obtain ⟨beyond, cause⟩ := Span.of_eq_error_iff.mp (Fault.of?_eq_some_iff.mp outside)
        rw [cause]
        exact .reaching length block beyond
  · intro obstacle
    cases obstacle with
    | leaving leaves inactive =>
        rw [if_pos leaves]
        exact Fault.of?_eq_some_iff.mpr (CallStack.pop_eq_error_iff.mpr ⟨inactive, rfl⟩)
    | calling calls full =>
        rw [if_neg (by omega), if_pos calls]
        exact Fault.of?_eq_some_iff.mpr (CallStack.push_eq_error_iff.mpr ⟨full, rfl⟩)
    | reaching length block beyond =>
        have group : opcode.word.toNat / 4096 = 0xD ∨ opcode.word.toNat / 4096 = 0xF := by
          by_contra neither
          rw [blockLength?_eq_none (by omega)] at block
          cases block
        rw [if_neg (by omega), if_neg (by omega), block]
        exact Fault.of?_eq_some_iff.mpr (Span.of_eq_error_iff.mpr ⟨beyond, rfl⟩)

end Machine

/-! ### Cycles that fail -/

/-- Why a cycle fails: an opcode that does not lie inside memory, or one that is refused. -/
inductive Breakdown (machine : Machine) : Failure → Prop
  | fetching (outside : 0xFFF ≤ machine.counter.toNat) :
      Breakdown machine
        ((Fault.addressOutOfBounds (max machine.counter.toNat 0x1000)).during .fetching)
  | executing (high low : UInt8) (fault : Fault)
      (first : machine.memory.cells[machine.counter.toNat]? = some high)
      (second : machine.memory.cells[machine.counter.toNat + 1]? = some low)
      (obstacle : Obstacle machine.stack.depth machine.index.toNat
        (high.toNat * 256 + low.toNat) fault) :
      Breakdown machine (fault.during (.executing (Opcode.ofBytes high low) machine.counter))

namespace Machine

variable {machine : Machine}

private theorem cycle_of_outside (table : RoutineTable) (outside : 0xFFF ≤ machine.counter.toNat) :
    machine.cycle table =
      .failing machine
        ((Fault.addressOutOfBounds (max machine.counter.toNat 0x1000)).during .fetching) := by
  rw [cycle, opcode_of_le machine (Nat.succ_le_succ outside)]
  rfl

private theorem cycle_of_obstacle {high low : UInt8} {fault : Fault}
    (first : machine.memory.cells[machine.counter.toNat]? = some high)
    (second : machine.memory.cells[machine.counter.toNat + 1]? = some low)
    (obstacle : Obstacle machine.stack.depth machine.index.toNat
      (high.toNat * 256 + low.toNat) fault) :
    machine.cycle .standard =
      { machine := machine.skip
        signals := [.noticed (.executing machine.counter (Opcode.ofBytes high low))]
        failure :=
          some (fault.during (.executing (Opcode.ofBytes high low) machine.counter)) } := by
  have fetched := opcode_of_bytes first second
  rw [← Opcode.word_ofBytes] at obstacle
  have failed := machine.skip.failure_obey_iff.mpr obstacle
  rw [← RoutineTable.instruction?_standard] at failed
  cases machine.course_cycle .standard with
  | unfetched cause fetch _ =>
      rw [fetched] at fetch
      cases fetch
  | refused opcode cause fetch refusal outcome =>
      rw [fetched] at fetch
      cases fetch
      rw [refusal] at failed
      cases failed
      exact outcome
  | completed opcode done fetch carried success _ =>
      rw [fetched] at fetch
      cases fetch
      rw [carried, success] at failed
      cases failed

private theorem failure_cycle_iff {failure : Failure} :
    (machine.cycle .standard).failure = some failure ↔ Breakdown machine failure := by
  constructor
  · intro failed
    by_cases outside : 0xFFF ≤ machine.counter.toNat
    · rw [cycle_of_outside .standard outside] at failed
      cases failed
      exact .fetching outside
    · have inside : machine.counter.toNat + 1 < memorySize :=
        Nat.succ_lt_succ (Nat.lt_of_not_le outside)
      obtain ⟨high, first⟩ := machine.memory.exists_byte (Nat.lt_of_succ_lt inside)
      obtain ⟨low, second⟩ := machine.memory.exists_byte inside
      have fetched := opcode_of_bytes first second
      cases machine.course_cycle .standard with
      | unfetched cause fetch _ =>
          rw [fetched] at fetch
          cases fetch
      | refused opcode cause fetch refusal outcome =>
          rw [fetched] at fetch
          cases fetch
          rw [outcome] at failed
          cases failed
          refine .executing high low cause first second ?_
          rw [← Opcode.word_ofBytes]
          apply machine.skip.failure_obey_iff.mp
          rw [← RoutineTable.instruction?_standard, refusal]
          rfl
      | completed opcode done _ _ _ outcome =>
          rw [outcome] at failed
          cases failed
  · intro breakdown
    cases breakdown with
    | fetching outside =>
        rw [cycle_of_outside .standard outside]
        rfl
    | executing high low fault first second obstacle =>
        rw [cycle_of_obstacle first second obstacle]

end Machine

/-! ### What a failure leaves behind -/

namespace Emulator

private theorem counter_perform_of_outside {emulator : Emulator} {call : Call}
    (onward : call.restarts = false) (outside : 0xFFF ≤ emulator.machine.counter.toNat) :
    (emulator.perform call).emulator.machine.counter = emulator.machine.counter := by
  have stays (machine : Machine) (same : machine.counter = emulator.machine.counter) :
      (machine.cycle emulator.table).machine.counter = emulator.machine.counter := by
    rw [Machine.cycle_of_outside emulator.table (same ▸ outside)]
    exact same
  by_cases runs : call.runs = true
  · cases call with
    | cycle => exact stays emulator.machine rfl
    | frame count =>
        exact Machine.frame_preserves
          (fun machine => machine.counter = emulator.machine.counter) stays count rfl
    | _ => cases runs
  · exact counter_perform (Bool.eq_false_of_not_eq_true runs) onward emulator

private theorem cycle_of_outside {emulator : Emulator}
    (outside : 0xFFF ≤ emulator.machine.counter.toNat) :
    emulator.cycle =
      { emulator := emulator
        outputs := []
        reply := .failed
          ((Fault.addressOutOfBounds (max emulator.machine.counter.toNat 0x1000)).during
            .fetching) } := by
  rw [cycle, act, Machine.cycle_of_outside emulator.table outside]
  rfl

private theorem deliver_executing (emulator : Emulator) (address : UInt16) (opcode : Opcode) :
    [Signal.noticed (.executing address opcode)].filterMap emulator.deliver? =
      if emulator.verbosity.keeps .trace then [.line (.executing address opcode)] else [] := by
  by_cases kept : emulator.verbosity.keeps .trace = true
  · simp [deliver?, Notice.level, kept]
  · simp [deliver?, Notice.level, kept]

/-- A cycle under the full table fails exactly on a breakdown. Outside of memory nothing changes
and nothing is sent, also in every later cycle until the host restarts the machine. A refused
opcode leaves the counter past it and everything else alone, and sends no more than its trace. -/
theorem cycle_failure {emulator : Emulator} (full : emulator.table = .standard) :
    (∀ failure, emulator.cycle.reply = .failed failure ↔ Breakdown emulator.machine failure) ∧
      (0xFFF ≤ emulator.machine.counter.toNat →
        ∀ calls : List Call, (∀ call ∈ calls, call.restarts = false) →
          (emulator.after calls).cycle =
            { emulator := emulator.after calls
              outputs := []
              reply := .failed
                ((Fault.addressOutOfBounds (max emulator.machine.counter.toNat 0x1000)).during
                  .fetching) }) ∧
      ∀ high low fault,
        emulator.machine.memory.cells[emulator.machine.counter.toNat]? = some high →
        emulator.machine.memory.cells[emulator.machine.counter.toNat + 1]? = some low →
        Obstacle emulator.machine.stack.depth emulator.machine.index.toNat
          (high.toNat * 256 + low.toNat) fault →
        let opcode := Opcode.ofBytes high low
        let counter := emulator.machine.counter
        let failure := fault.during (.executing opcode counter)
        emulator.cycle =
            { emulator :=
                { emulator with machine := { emulator.machine with counter := counter + 2 } }
              outputs :=
                if emulator.verbosity.keeps .trace then [.line (.executing counter opcode)]
                else []
              reply := .failed failure } ∧
          (counter + 2).toNat = counter.toNat + 2 ∧
          failure.message =
            "error executing " ++ opcode.text ++ " at " ++ addressText counter.toNat := by
  refine ⟨?_, ?_, ?_⟩
  · intro failure
    rw [cycle, reply_act_failed_iff, full]
    exact Machine.failure_cycle_iff
  · intro outside calls onward
    have stays : (emulator.after calls).machine.counter = emulator.machine.counter := by
      apply after_preserves fun reached =>
        reached.machine.counter = emulator.machine.counter
      · intro reached call member same
        rw [counter_perform_of_outside (onward call member) (same ▸ outside), same]
      · rfl
    rw [← stays]
    exact cycle_of_outside (stays ▸ outside)
  · intro high low fault first second obstacle
    have inside := Machine.counter_le_of_opcode (Machine.opcode_of_bytes first second)
    refine ⟨?_, emulator.machine.counter_skip (by omega), rfl⟩
    rw [cycle, act, full, Machine.cycle_of_obstacle first second obstacle]
    simp only [deliver_executing]
    rw [← full]
    rfl

theorem cycle_failure_unmatched_return :
    (holding [0x00, 0xEE]).table = .standard ∧
      (holding [0x00, 0xEE]).cycle.reply =
        .failed (Fault.stackUnderflow.during (.executing { word := 0x00EE } 0x200)) := by
  refine ⟨rfl, ?_⟩
  apply ((cycle_failure rfl).1 _).mpr
  refine Breakdown.executing 0x00 0xEE .stackUnderflow ?_ ?_ (.leaving rfl rfl)
  · exact Memory.getElem?_overwrite_offset _ 0 (by decide) rfl
  · exact Memory.getElem?_overwrite_offset _ 1 (by decide) rfl

end Emulator

end Chip8
