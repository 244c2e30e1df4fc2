import Chip8.Instruction.Decode
import Chip8.Proofs.Arithmetic
import Chip8.Routine.Table
import Mathlib.Data.Fintype.Basic
import Mathlib.Tactic.FinCases

/-!
Routines and instructions. A routine picks the digits of an opcode for itself, and the decoder
picks them once more. Whatever family a routine serves, it carries out one instruction of its own
reading; under the full table that reading is the decoder's.
-/

namespace Chip8

open Routine

/-- Carries out the instruction read off an opcode, or rejects the opcode without one. -/
def Machine.obey (machine : Machine) (opcode : Opcode) : Option Instruction → Step Fault
  | some instruction => instruction.execute machine
  | none => .rejecting machine opcode

def Routine.instruction? (opcode : Opcode) : Routine → Option Instruction
  | .control => some (Instruction.ofSystemWord opcode)
  | .jump => some (.jump opcode.address)
  | .call => some (.call opcode.address)
  | .skipEqualByte => some (.skipIfEqual opcode.x (.immediate opcode.byte))
  | .skipUnequalByte => some (.skipUnlessEqual opcode.x (.immediate opcode.byte))
  | .skipEqualRegister =>
      if opcode.nibble.val = 0 then some (.skipIfEqual opcode.x (.register opcode.y)) else none
  | .loadByte => some (.load opcode.x opcode.byte)
  | .addByte => some (.addImmediate opcode.x opcode.byte)
  | .arithmetic =>
      (Arithmetic.ofCode? opcode.nibble.val).map fun operation =>
        .arithmetic operation opcode.x opcode.y
  | .skipUnequalRegister =>
      if opcode.nibble.val = 0 then some (.skipUnlessEqual opcode.x (.register opcode.y)) else none
  | .loadIndex => some (.loadIndex opcode.address)
  | .jumpOffset => some (.jumpOffset opcode.address)
  | .random => some (.random opcode.x opcode.byte)
  | .draw => some (.draw opcode.x opcode.y opcode.nibble)
  | .skipKey => Instruction.ofKeyWord? opcode
  | .auxiliary =>
      (Auxiliary.ofCode? opcode.byte.toNat).map fun operation => .auxiliary operation opcode.x

def RoutineTable.instruction? (table : RoutineTable) (opcode : Opcode) : Option Instruction :=
  (table.slots.get opcode.family).bind (Routine.instruction? opcode)

/-! ### Routines of flow -/

private theorem runControl_eq (opcode : Opcode) (machine : Machine) :
    runControl opcode machine = (Instruction.ofSystemWord opcode).execute machine := by
  unfold runControl Instruction.ofSystemWord
  by_cases clears : opcode.word = 0x00E0
  · rw [if_pos clears, if_pos clears]
    rfl
  · rw [if_neg clears, if_neg clears]
    by_cases leaves : opcode.word = 0x00EE
    · rw [if_pos leaves, if_pos leaves]
      simp only [Instruction.execute]
      cases machine.stack.pop <;> rfl
    · rw [if_neg leaves, if_neg leaves]
      rfl

private theorem runCall_eq (opcode : Opcode) (machine : Machine) :
    runCall opcode machine = (Instruction.call opcode.address).execute machine := by
  simp only [runCall, Instruction.execute]
  cases machine.stack.push machine.counter <;> rfl

private theorem runJumpOffset_eq (opcode : Opcode) (machine : Machine) :
    runJumpOffset opcode machine =
      (Instruction.jumpOffset opcode.address).execute machine := by
  simp only [runJumpOffset, Word.offset_eq_ofNat]
  rfl

theorem skipWhen_beq (machine : Machine) (left right : UInt8) :
    skipWhen (left == right) machine =
      .quiet (if left = right then machine.skip else machine) := by
  simp only [skipWhen, beq_iff_eq]

theorem skipWhen_bne (machine : Machine) (left right : UInt8) :
    skipWhen (left != right) machine =
      .quiet (if left = right then machine else machine.skip) := by
  by_cases same : left = right
  · simp [skipWhen, same]
  · simp [skipWhen, same]

private theorem runSkipEqualRegister_eq (opcode : Opcode) (machine : Machine) :
    runSkipEqualRegister opcode machine =
      machine.obey opcode (Routine.skipEqualRegister.instruction? opcode) := by
  simp only [runSkipEqualRegister, Routine.instruction?]
  by_cases aligned : opcode.nibble.val = 0
  · rw [if_pos aligned, if_neg (not_not_intro aligned)]
    exact skipWhen_beq machine _ _
  · rw [if_neg aligned, if_pos aligned]
    rfl

private theorem runSkipUnequalRegister_eq (opcode : Opcode) (machine : Machine) :
    runSkipUnequalRegister opcode machine =
      machine.obey opcode (Routine.skipUnequalRegister.instruction? opcode) := by
  simp only [runSkipUnequalRegister, Routine.instruction?]
  by_cases aligned : opcode.nibble.val = 0
  · rw [if_pos aligned, if_neg (not_not_intro aligned)]
    exact skipWhen_bne machine _ _
  · rw [if_neg aligned, if_pos aligned]
    rfl

private theorem runSkipKey_eq (opcode : Opcode) (machine : Machine) :
    runSkipKey opcode machine = machine.obey opcode (Instruction.ofKeyWord? opcode) := by
  unfold runSkipKey Instruction.ofKeyWord?
  by_cases down : opcode.byte = 0x9E
  · rw [if_pos down, if_pos down]
    rfl
  · rw [if_neg down, if_neg down]
    by_cases up : opcode.byte = 0xA1
    · rw [if_pos up, if_pos up]
      simp only [Machine.obey, Instruction.execute, skipWhen, Bool.not_eq_true']
    · rw [if_neg up, if_neg up]
      rfl

/-! ### Routines of registers and devices -/

private theorem runAddByte_eq (opcode : Opcode) (machine : Machine) :
    runAddByte opcode machine =
      (Instruction.addImmediate opcode.x opcode.byte).execute machine := by
  simp only [runAddByte, Word.sum_eq_ofNat]
  rfl

private theorem runArithmetic_eq (opcode : Opcode) (machine : Machine) :
    runArithmetic opcode machine =
      machine.obey opcode (Routine.arithmetic.instruction? opcode) := by
  unfold runArithmetic Routine.instruction?
  cases Arithmetic.ofCode? opcode.nibble.val with
  | none => rfl
  | some operation =>
      simp only [Option.map_some, Machine.obey, Instruction.execute, Arithmetic.execute,
        Word.combine_eq, Machine.number]
      cases operation.flag? (machine.register opcode.x).toNat
        (machine.register opcode.y).toNat <;> rfl

private theorem runDraw_eq (opcode : Opcode) (machine : Machine) :
    runDraw opcode machine =
      (Instruction.draw opcode.x opcode.y opcode.nibble).execute machine := by
  simp only [runDraw, Instruction.execute, Memory.slice, Machine.spanAtIndex]
  cases Span.of machine.index.toNat opcode.nibble.val with
  | error fault => rfl
  | ok span =>
      simp only [Except.map, Word.bit_eq_ofNat]
      rfl

private theorem storeAtIndex_eq (bytes : List UInt8) (machine : Machine) :
    storeAtIndex bytes machine =
      match machine.spanAtIndex bytes.length with
      | .error fault => .failing machine fault
      | .ok span =>
          .quiet { machine with memory := machine.memory.overwrite span.start bytes } := by
  simp only [storeAtIndex, Memory.write, Machine.spanAtIndex]
  cases Span.of machine.index.toNat bytes.length <;> rfl

theorem take_registers (machine : Machine) (count : Nat) :
    machine.registers.toList.take count =
      ((List.finRange 16).take count).map machine.register := by
  have all : machine.registers.toList = (List.finRange 16).map machine.register := by
    apply List.ext_getElem
    · simp
    · intro position inside _
      simp [Machine.register]
  rw [all, List.map_take]

theorem length_registersUpTo (machine : Machine) (last : Register) :
    (((List.finRange 16).take (last.val + 1)).map machine.register).length = last.val + 1 := by
  rw [← take_registers]
  exact length_take_registers machine last

private theorem runRestore_eq (x : Register) (machine : Machine) :
    runRestore x machine = Auxiliary.restoreRegisters.execute x machine := by
  simp only [runRestore, Auxiliary.execute, Memory.slice, Machine.spanAtIndex]
  cases Span.of machine.index.toNat (x.val + 1) <;> rfl

private theorem runAuxiliary_eq (opcode : Opcode) (machine : Machine) :
    runAuxiliary opcode machine =
      machine.obey opcode (Routine.auxiliary.instruction? opcode) := by
  unfold runAuxiliary Routine.instruction?
  cases Auxiliary.ofCode? opcode.byte.toNat with
  | none => rfl
  | some operation =>
      simp only [Option.map_some, Machine.obey, Instruction.execute]
      cases operation with
      | readDelay => rfl
      | awaitKey =>
          simp only [runAwaitKey, Auxiliary.execute]
          cases machine.keypad.lowest? <;> rfl
      | setDelay => rfl
      | setSound => rfl
      | addIndex =>
          simp only [Word.advance_eq_ofNat]
          rfl
      | pointGlyph =>
          simp only [Word.glyph_eq_ofNat]
          rfl
      | storeDecimal =>
          simp only [storeAtIndex_eq, Word.digits_eq_ofNat]
          rfl
      | saveRegisters =>
          simp only [storeAtIndex_eq, take_registers, length_registersUpTo]
          rfl
      | restoreRegisters => exact runRestore_eq opcode.x machine

/-! ### Tables -/

/-- A routine carries out the instruction that it reads off the opcode. -/
theorem Routine.perform_eq (routine : Routine) (opcode : Opcode) (machine : Machine) :
    routine.perform opcode machine = machine.obey opcode (routine.instruction? opcode) := by
  cases routine with
  | control => exact runControl_eq opcode machine
  | jump => rfl
  | call => exact runCall_eq opcode machine
  | skipEqualByte => exact skipWhen_beq machine _ _
  | skipUnequalByte => exact skipWhen_bne machine _ _
  | skipEqualRegister => exact runSkipEqualRegister_eq opcode machine
  | loadByte => rfl
  | addByte => exact runAddByte_eq opcode machine
  | arithmetic => exact runArithmetic_eq opcode machine
  | skipUnequalRegister => exact runSkipUnequalRegister_eq opcode machine
  | loadIndex => rfl
  | jumpOffset => exact runJumpOffset_eq opcode machine
  | random => rfl
  | draw => exact runDraw_eq opcode machine
  | skipKey => exact runSkipKey_eq opcode machine
  | auxiliary => exact runAuxiliary_eq opcode machine

namespace RoutineTable

theorem dispatch_eq (table : RoutineTable) (opcode : Opcode) (machine : Machine) :
    table.dispatch opcode machine = machine.obey opcode (table.instruction? opcode) := by
  rw [dispatch, Table.dispatchBy, instruction?]
  cases table.slots.get opcode.family with
  | none => rfl
  | some routine => exact routine.perform_eq opcode machine

/-- The full table reads opcodes as the decoder does. -/
theorem instruction?_standard (opcode : Opcode) :
    standard.instruction? opcode = Instruction.ofOpcode? opcode := by
  rw [instruction?, Instruction.ofOpcode?]
  generalize opcode.family = family
  fin_cases family <;> rfl

theorem dispatch_standard {opcode : Opcode} {instruction : Instruction}
    (reading : Instruction.ofOpcode? opcode = some instruction) (machine : Machine) :
    standard.dispatch opcode machine = instruction.execute machine := by
  rw [dispatch_eq, instruction?_standard, reading]
  rfl

theorem dispatch_auxiliary (operation : Auxiliary) (x : Register) {y nibble : Nibble}
    (code : operation.code = y.val * 16 + nibble.val) (machine : Machine) :
    standard.dispatch (.ofDigits 0xF x y nibble) machine = operation.execute x machine := by
  have family := congrArg Fin.val (Opcode.family_ofDigits 0xF x y nibble)
  have byte := code.trans (Opcode.byte_ofDigits 0xF x y nibble).symm
  rw [dispatch_standard (Opcode.ofOpcode?_of_auxiliary family byte), Opcode.x_ofDigits]
  rfl

end RoutineTable

/-! ### Signals -/

private theorem Auxiliary.signals_execute (operation : Auxiliary) (x : Register)
    (machine : Machine) : (operation.execute x machine).signals = [] := by
  cases operation with
  | readDelay => rfl
  | awaitKey =>
      simp only [Auxiliary.execute]
      cases machine.keypad.lowest? <;> rfl
  | setDelay => rfl
  | setSound => rfl
  | addIndex => rfl
  | pointGlyph => rfl
  | storeDecimal =>
      simp only [Auxiliary.execute]
      cases machine.spanAtIndex 3 <;> rfl
  | saveRegisters =>
      simp only [Auxiliary.execute]
      cases machine.spanAtIndex (x.val + 1) <;> rfl
  | restoreRegisters =>
      simp only [Auxiliary.execute]
      cases machine.spanAtIndex (x.val + 1) <;> rfl

/-- Only system calls report, and only changes of the screen show it. -/
theorem Instruction.signals_execute (instruction : Instruction) (machine : Machine) :
    (instruction.execute machine).signals =
      match instruction with
      | .callSystem target => [.noticed (.ignoredSystemCall target)]
      | .clearScreen => [.redrawn (instruction.execute machine).machine.panel.screen]
      | .draw _ _ _ =>
          if (instruction.execute machine).failure.isNone then
            [.redrawn (instruction.execute machine).machine.panel.screen]
          else []
      | _ => [] := by
  cases instruction with
  | callSystem target => rfl
  | clearScreen => rfl
  | leave =>
      simp only [Instruction.execute]
      cases machine.stack.pop <;> rfl
  | jump target => rfl
  | call target =>
      simp only [Instruction.execute]
      cases machine.stack.push machine.counter <;> rfl
  | skipIfEqual x operand => rfl
  | skipUnlessEqual x operand => rfl
  | load x value => rfl
  | addImmediate x value => rfl
  | arithmetic operation x y => rfl
  | loadIndex target => rfl
  | jumpOffset base => rfl
  | random x mask => rfl
  | draw x y height =>
      cases block : machine.spanAtIndex height.val with
      | error fault =>
          simp only [Instruction.execute, block]
          rfl
      | ok span =>
          simp only [Instruction.execute, block]
          rfl
  | skipOnKey x down => rfl
  | auxiliary operation x => exact operation.signals_execute x machine

private theorem Signal.noticed_ne_redrawn (notice : Notice) (screen : Screen) :
    Signal.noticed notice ≠ .redrawn screen := by
  intro same
  cases same

private theorem Instruction.unimplemented_not_mem_signals (instruction : Instruction)
    (machine : Machine) (opcode : Opcode) :
    Signal.noticed (.unimplemented opcode) ∉ (instruction.execute machine).signals := by
  intro reported
  rw [signals_execute] at reported
  cases instruction with
  | callSystem target => cases List.mem_singleton.mp reported
  | clearScreen =>
      have shown := List.mem_singleton.mp reported
      exact Signal.noticed_ne_redrawn _ _ shown
  | draw x y height =>
      dsimp only at reported
      split at reported
      · have shown := List.mem_singleton.mp reported
        exact Signal.noticed_ne_redrawn _ _ shown
      · exact List.not_mem_nil reported
  | _ => exact List.not_mem_nil reported

/-! ### Decoding and carrying out -/

/-- Carrying out an opcode under the full table agrees with the decoder on all words. A word
that does not decode is reported once and changes nothing, and any other has the meaning of its
instruction, whose definition does not see the word. -/
theorem dispatch_standard_agrees (opcode : Opcode) (machine : Machine) :
    match Instruction.decode opcode with
    | .error fault =>
        fault = .invalidOpcode opcode ∧
          RoutineTable.standard.dispatch opcode machine =
            { machine := machine
              signals := [.noticed (.unimplemented opcode)]
              failure := none } ∧
          (Notice.unimplemented opcode).level = .warning ∧
          (Notice.unimplemented opcode).text = "unimplemented opcode " ++ opcode.text
    | .ok instruction =>
        RoutineTable.standard.dispatch opcode machine = instruction.execute machine ∧
          ∀ rejected, Signal.noticed (.unimplemented rejected) ∉
            (RoutineTable.standard.dispatch opcode machine).signals := by
  rw [RoutineTable.dispatch_eq, RoutineTable.instruction?_standard, Instruction.decode]
  cases Instruction.ofOpcode? opcode with
  | none => exact ⟨rfl, rfl, rfl, rfl⟩
  | some instruction => exact ⟨rfl, instruction.unimplemented_not_mem_signals machine⟩

end Chip8
