import Chip8.Proofs.Effect

/-!
What a cycle depends on. The bytes of memory, the stack, the keypad and the delay timer are parts of
a machine that only some instructions read, and no instruction reads the sound timer or the mark on
the panel. Machines that coincide in the parts that a cycle reads, and in everything that is no such
part, send the same signals, fail alike, and still coincide afterwards in the parts in which they
did before.
-/

namespace Chip8

inductive Part
  | byte (address : Nat)
  | mark
  | delay
  | sound
  | stack
  | keypad
  deriving DecidableEq, Repr

/-! ### Reading -/

def Machine.block (machine : Machine) (length : Nat) : List Part :=
  (List.range length).map fun offset => .byte (machine.index.toNat + offset)

/-- The parts that an instruction reads. What it overwrites does not count. -/
def Instruction.reads (machine : Machine) : Instruction → List Part
  | .leave => [.stack]
  | .call _ => [.stack]
  | .draw _ _ height => machine.block height.val
  | .skipOnKey _ _ => [.keypad]
  | .auxiliary .readDelay _ => [.delay]
  | .auxiliary .awaitKey _ => [.keypad]
  | .auxiliary .restoreRegisters x => machine.block (x.val + 1)
  | _ => []

/-- The parts that the next cycle reads under the full table: both bytes of its opcode, the sound
timer, for it tells when that runs out, and what the instruction of the opcode reads. -/
def Machine.reads (machine : Machine) : List Part :=
  .byte machine.counter.toNat :: .byte (machine.counter.toNat + 1) :: .sound ::
    match machine.instruction with
    | .ok instruction => instruction.reads machine
    | .error _ => []

inductive Instruction.Reads : Instruction → Part → Prop
  | data (instruction : Instruction) (address : Nat) : Reads instruction (.byte address)
  | delay (x : Register) : Reads (.auxiliary .readDelay x) .delay
  | leave : Reads .leave .stack
  | call (target : Address) : Reads (.call target) .stack
  | skipOnKey (x : Register) (down : Bool) : Reads (.skipOnKey x down) .keypad
  | awaitKey (x : Register) : Reads (.auxiliary .awaitKey x) .keypad

private theorem Machine.exists_of_mem_block {machine : Machine} {length : Nat} {part : Part}
    (member : part ∈ machine.block length) : ∃ address, part = .byte address := by
  obtain ⟨offset, _, same⟩ := List.mem_map.mp member
  exact ⟨_, same.symm⟩

theorem Instruction.reads_of_mem {instruction : Instruction} {machine : Machine} {part : Part}
    (read : part ∈ instruction.reads machine) : instruction.Reads part := by
  cases instruction with
  | leave =>
      cases List.mem_singleton.mp read
      exact .leave
  | call target =>
      cases List.mem_singleton.mp read
      exact .call target
  | draw x y height =>
      obtain ⟨address, same⟩ := Machine.exists_of_mem_block read
      exact same ▸ .data _ address
  | skipOnKey x down =>
      cases List.mem_singleton.mp read
      exact .skipOnKey x down
  | auxiliary operation x =>
      cases operation with
      | readDelay =>
          cases List.mem_singleton.mp read
          exact .delay x
      | awaitKey =>
          cases List.mem_singleton.mp read
          exact .awaitKey x
      | restoreRegisters =>
          obtain ⟨address, same⟩ := Machine.exists_of_mem_block read
          exact same ▸ .data _ address
      | _ => cases read
  | _ => cases read

/-- Apart from the opcode and the sound timer, a cycle reads what its instruction reads. -/
theorem Machine.mem_reads_iff {machine : Machine} {part : Part}
    (data : ∀ address, part ≠ .byte address) (silent : part ≠ .sound) :
    part ∈ machine.reads ↔
      ∃ instruction, machine.instruction = .ok instruction ∧
        part ∈ instruction.reads machine := by
  rw [reads, List.mem_cons, List.mem_cons, List.mem_cons, or_iff_right (data _),
    or_iff_right (data _), or_iff_right silent]
  cases machine.instruction with
  | ok instruction => simp only [Except.ok.injEq, exists_eq_left']
  | error fault => simp only [List.not_mem_nil, reduceCtorEq, false_and, exists_false]

/-- The same state, apart from the parts that are not known. -/
structure Machine.Coincides (known : Part → Prop) (one other : Machine) : Prop where
  registers : one.registers = other.registers
  index : one.index = other.index
  counter : one.counter = other.counter
  screen : one.panel.screen = other.panel.screen
  entropy : one.entropy = other.entropy
  byte : ∀ address, known (.byte address) →
    one.memory.cells[address]? = other.memory.cells[address]?
  mark : known .mark → one.panel.changed = other.panel.changed
  delay : known .delay → one.delay = other.delay
  sound : known .sound → one.sound = other.sound
  stack : known .stack → one.stack = other.stack
  keypad : known .keypad → one.keypad = other.keypad

structure Step.Coincides {ε : Type} (known : Part → Prop) (one other : Step ε) : Prop where
  machine : one.machine.Coincides known other.machine
  signals : one.signals = other.signals
  failure : one.failure = other.failure

/-! ### One instruction -/

def Machine.refit (machine donor : Machine) : Machine :=
  { machine with
    memory := donor.memory
    panel := { machine.panel with changed := donor.panel.changed }
    delay := donor.delay
    sound := donor.sound
    stack := donor.stack
    keypad := donor.keypad }

section

variable (machine donor : Machine)

@[simp] theorem Machine.memory_refit : (machine.refit donor).memory = donor.memory := rfl

@[simp] theorem Machine.delay_refit : (machine.refit donor).delay = donor.delay := rfl

@[simp] theorem Machine.stack_refit : (machine.refit donor).stack = donor.stack := rfl

@[simp] theorem Machine.keypad_refit : (machine.refit donor).keypad = donor.keypad := rfl

@[simp] theorem Machine.counter_refit : (machine.refit donor).counter = machine.counter := rfl

@[simp] theorem Machine.draw_refit :
    (machine.refit donor).panel.draw = machine.panel.draw := rfl

@[simp] theorem Machine.register_refit (register : Register) :
    (machine.refit donor).register register = machine.register register := rfl

@[simp] theorem Machine.number_refit (register : Register) :
    (machine.refit donor).number register = machine.number register := rfl

@[simp] theorem Machine.spanAtIndex_refit (length : Nat) :
    (machine.refit donor).spanAtIndex length = machine.spanAtIndex length := rfl

@[simp] theorem Operand.value_refit (operand : Operand) :
    operand.value (machine.refit donor) = operand.value machine := by
  cases operand <;> rfl

private theorem Arithmetic.execute_refit (operation : Arithmetic) (x y : Register) :
    operation.execute x y (machine.refit donor) = (operation.execute x y machine).refit donor := by
  simp only [execute, Machine.number_refit]
  cases operation.flag? (machine.number x) (machine.number y) <;> rfl

end

namespace Machine.Coincides

variable {known : Part → Prop} {one other machine donor result : Machine}

theorem eq_refit (coincides : one.Coincides known other) : other = one.refit other :=
  Machine.ext rfl coincides.registers.symm coincides.index.symm coincides.counter.symm
    (Panel.ext coincides.screen.symm rfl) rfl rfl rfl rfl coincides.entropy.symm

theorem refl (known : Part → Prop) (machine : Machine) : machine.Coincides known machine :=
  ⟨rfl, rfl, rfl, rfl, rfl, fun _ _ => rfl, fun _ => rfl, fun _ => rfl, fun _ => rfl,
    fun _ => rfl, fun _ => rfl⟩

theorem memory_eq (coincides : one.Coincides known other)
    (bytes : ∀ address, known (.byte address)) : one.memory = other.memory := by
  refine Memory.ext (Vector.ext fun address within => ?_)
  have byte := coincides.byte address (bytes address)
  rw [Vector.getElem?_eq_getElem within, Vector.getElem?_eq_getElem within] at byte
  exact Option.some.inj byte

theorem eq_of_memory (coincides : one.Coincides known other)
    (rest : ∀ part, (∀ address, part ≠ .byte address) → known part) :
    other = { one with memory := other.memory } := by
  have mark := coincides.mark (rest .mark nofun)
  have delay := coincides.delay (rest .delay nofun)
  have sound := coincides.sound (rest .sound nofun)
  have stack := coincides.stack (rest .stack nofun)
  have keypad := coincides.keypad (rest .keypad nofun)
  rw [coincides.eq_refit, refit, ← mark, ← delay, ← sound, ← stack, ← keypad]

theorem eq_of_delay (coincides : one.Coincides (· ≠ .delay) other) :
    other = { one with delay := other.delay } := by
  have memory := coincides.memory_eq nofun
  have mark := coincides.mark nofun
  have sound := coincides.sound nofun
  have stack := coincides.stack nofun
  have keypad := coincides.keypad nofun
  rw [coincides.eq_refit, refit, ← memory, ← mark, ← sound, ← stack, ← keypad]

theorem eq_of_stack (coincides : one.Coincides (· ≠ .stack) other) :
    other = { one with stack := other.stack } := by
  have memory := coincides.memory_eq nofun
  have mark := coincides.mark nofun
  have delay := coincides.delay nofun
  have sound := coincides.sound nofun
  have keypad := coincides.keypad nofun
  rw [coincides.eq_refit, refit, ← memory, ← mark, ← delay, ← sound, ← keypad]

theorem eq_of_keypad (coincides : one.Coincides (· ≠ .keypad) other) :
    other = { one with keypad := other.keypad } := by
  have memory := coincides.memory_eq nofun
  have mark := coincides.mark nofun
  have delay := coincides.delay nofun
  have sound := coincides.sound nofun
  have stack := coincides.stack nofun
  rw [coincides.eq_refit, refit, ← memory, ← mark, ← delay, ← sound, ← stack]

/-- The parts stay as different as they were as long as nothing touches them. -/
theorem untouched (coincides : machine.Coincides known (machine.refit donor))
    (kept : result.refit machine = result) : result.Coincides known (result.refit donor) := by
  rw [← kept]
  exact ⟨rfl, rfl, rfl, rfl, rfl, coincides.byte, coincides.mark, coincides.delay,
    coincides.sound, coincides.stack, coincides.keypad⟩

theorem overwrite (coincides : machine.Coincides known (machine.refit donor)) (start : Nat)
    (bytes : List UInt8) :
    { machine with memory := machine.memory.overwrite start bytes }.Coincides known
      { machine.refit donor with memory := donor.memory.overwrite start bytes } := by
  refine { coincides with byte := ?_ }
  intro address placed
  simp only [Memory.getElem?_overwrite]
  split
  · rfl
  · exact coincides.byte address placed

theorem window (coincides : machine.Coincides known (machine.refit donor))
    {length : Nat} {span : Span} (block : machine.spanAtIndex length = .ok span)
    (inside : ∀ part ∈ machine.block length, known part) :
    machine.memory.window span = donor.memory.window span := by
  obtain ⟨start, count⟩ := Span.of_eq_ok block
  apply Memory.window_congr
  intro offset within
  rw [start]
  rw [count] at within
  exact coincides.byte _ (inside _ (List.mem_map_of_mem (List.mem_range.mpr within)))

end Machine.Coincides

namespace Step.Coincides

variable {ε : Type} {known : Part → Prop} {one other : Machine}

theorem quiet (coincides : one.Coincides known other) :
    (Step.quiet one : Step ε).Coincides known (.quiet other) :=
  ⟨coincides, rfl, rfl⟩

theorem sending (coincides : one.Coincides known other) (signals : List Signal) :
    (Step.sending one signals : Step ε).Coincides known (.sending other signals) :=
  ⟨coincides, rfl, rfl⟩

theorem failing (coincides : one.Coincides known other) (failure : ε) :
    (Step.failing one failure).Coincides known (.failing other failure) :=
  ⟨coincides, rfl, rfl⟩

end Step.Coincides

section

variable {known : Part → Prop} {machine donor : Machine}
  (coincides : machine.Coincides known (machine.refit donor))

include coincides

private theorem Auxiliary.coincides_execute (operation : Auxiliary) (x : Register)
    (inside : ∀ part ∈ (Instruction.auxiliary operation x).reads machine, known part) :
    (operation.execute x machine).Coincides known
      (operation.execute x (machine.refit donor)) := by
  cases operation with
  | readDelay =>
      have same : machine.delay = donor.delay := coincides.delay (inside _ List.mem_cons_self)
      simp only [execute, Machine.delay_refit, ← same]
      exact .quiet (coincides.untouched rfl)
  | awaitKey =>
      have lowest : machine.keypad.lowest? = donor.keypad.lowest? :=
        congrArg Keypad.lowest? (coincides.keypad (inside _ List.mem_cons_self))
      simp only [execute, Machine.keypad_refit, ← lowest]
      cases machine.keypad.lowest? with
      | none => exact .quiet (coincides.untouched rfl)
      | some key => exact .quiet (coincides.untouched rfl)
  | setDelay => exact .quiet { coincides with delay := fun _ => rfl }
  | setSound => exact .quiet { coincides with sound := fun _ => rfl }
  | storeDecimal =>
      simp only [execute, Machine.spanAtIndex_refit, Machine.number_refit]
      cases machine.spanAtIndex 3 with
      | error fault => exact .failing coincides fault
      | ok span => exact .quiet (coincides.overwrite _ _)
  | saveRegisters =>
      simp only [execute, Machine.spanAtIndex_refit]
      cases machine.spanAtIndex (x.val + 1) with
      | error fault => exact .failing coincides fault
      | ok span => exact .quiet (coincides.overwrite _ _)
  | restoreRegisters =>
      simp only [execute, Machine.spanAtIndex_refit, Machine.memory_refit]
      cases block : machine.spanAtIndex (x.val + 1) with
      | error fault => exact .failing coincides fault
      | ok span =>
          simp only [← coincides.window block inside]
          exact .quiet (coincides.untouched rfl)
  | _ => exact .quiet (coincides.untouched rfl)

/-- What an instruction does depends on no part that it does not read. -/
theorem Instruction.coincides_execute (instruction : Instruction)
    (inside : ∀ part ∈ instruction.reads machine, known part) :
    (instruction.execute machine).Coincides known
      (instruction.execute (machine.refit donor)) := by
  cases instruction with
  | callSystem target => exact .sending coincides _
  | clearScreen =>
      refine .sending ?_ _
      exact { coincides with screen := rfl, mark := fun _ => rfl }
  | leave =>
      have same : machine.stack = donor.stack := coincides.stack (inside _ List.mem_cons_self)
      simp only [execute, Machine.stack_refit, ← same]
      cases machine.stack.pop with
      | error fault => exact .failing coincides fault
      | ok result => exact .quiet { coincides with counter := rfl, stack := fun _ => rfl }
  | call target =>
      have same : machine.stack = donor.stack := coincides.stack (inside _ List.mem_cons_self)
      simp only [execute, Machine.stack_refit, Machine.counter_refit, ← same]
      cases machine.stack.push machine.counter with
      | error fault => exact .failing coincides fault
      | ok pushed => exact .quiet { coincides with counter := rfl, stack := fun _ => rfl }
  | skipIfEqual x operand =>
      simp only [execute, Machine.register_refit, Operand.value_refit]
      split
      · exact .quiet (coincides.untouched rfl)
      · exact .quiet coincides
  | skipUnlessEqual x operand =>
      simp only [execute, Machine.register_refit, Operand.value_refit]
      split
      · exact .quiet coincides
      · exact .quiet (coincides.untouched rfl)
  | arithmetic operation x y =>
      have kept : (operation.execute x y machine).refit machine =
          operation.execute x y machine := by
        rw [← operation.execute_refit]
        rfl
      simp only [execute, Arithmetic.execute_refit]
      exact .quiet (coincides.untouched kept)
  | draw x y height =>
      simp only [execute, Machine.spanAtIndex_refit, Machine.memory_refit, Machine.draw_refit,
        Machine.number_refit]
      cases block : machine.spanAtIndex height.val with
      | error fault => exact .failing coincides fault
      | ok span =>
          simp only [← coincides.window block inside]
          refine .sending ?_ _
          exact { coincides with registers := rfl, screen := rfl, mark := fun _ => rfl }
  | skipOnKey x down =>
      have isDown : machine.keypad.isDown = donor.keypad.isDown :=
        congrArg Keypad.isDown (coincides.keypad (inside _ List.mem_cons_self))
      simp only [execute, Machine.keypad_refit, Machine.register_refit, ← isDown]
      by_cases held : machine.keypad.isDown (Key.ofByte (machine.register x)) = down
      · simp only [if_pos held]
        exact .quiet (coincides.untouched rfl)
      · simp only [if_neg held]
        exact .quiet coincides
  | auxiliary operation x => exact operation.coincides_execute coincides x inside
  | _ => exact .quiet (coincides.untouched rfl)

end

/-! ### One cycle -/

namespace Step.Coincides

variable {ε δ : Type} {known : Part → Prop} {one other : Step ε}

theorem mapFailure (coincides : one.Coincides known other) (rename : ε → δ) :
    (one.mapFailure rename).Coincides known (other.mapFailure rename) :=
  ⟨coincides.machine, coincides.signals, congrArg (Option.map rename) coincides.failure⟩

theorem after (coincides : one.Coincides known other) (signals : List Signal) :
    (one.after signals).Coincides known (other.after signals) :=
  ⟨coincides.machine, congrArg (signals ++ ·) coincides.signals, coincides.failure⟩

theorem andThen (coincides : one.Coincides known other) {next : Machine → Step ε}
    (onward : (next one.machine).Coincides known (next other.machine)) :
    (one.andThen next).Coincides known (other.andThen next) := by
  simp only [Step.andThen, ← coincides.failure, ← coincides.signals]
  cases one.failure with
  | some failure => exact coincides
  | none => exact onward.after one.signals

end Step.Coincides

namespace Machine.Coincides

variable {known : Part → Prop} {one other : Machine}

theorem skip (coincides : one.Coincides known other) : one.skip.Coincides known other.skip :=
  { coincides with counter := congrArg (· + 2) coincides.counter }

theorem tick (coincides : one.Coincides known other) (heard : known .sound) :
    one.tick.Coincides known other.tick := by
  have sound := congrArg Countdown.tick (coincides.sound heard)
  refine ⟨{ coincides with sound := fun _ => congrArg Prod.fst sound, delay := ?_ }, ?_, rfl⟩
  · intro among
    exact congrArg (fun timer => timer.tick.1) (coincides.delay among)
  · simp only [Machine.tick, Step.sending, sound]

theorem obey (coincides : one.Coincides known other) (opcode : Opcode)
    {reading : Option Instruction}
    (inside : ∀ instruction, reading = some instruction →
      ∀ part ∈ instruction.reads one, known part) :
    (one.obey opcode reading).Coincides known (other.obey opcode reading) := by
  cases reading with
  | none => exact .sending coincides _
  | some instruction =>
      have same := coincides.eq_refit
      rw [same] at coincides ⊢
      exact instruction.coincides_execute coincides (inside instruction rfl)

theorem opcode (coincides : one.Coincides known other)
    (first : known (.byte one.counter.toNat)) (second : known (.byte (one.counter.toNat + 1))) :
    other.opcode = one.opcode := by
  have high := coincides.byte _ first
  have low := coincides.byte _ second
  simp only [Machine.opcode, Memory.read, ← coincides.counter, high, low]

/-- A cycle depends on no part that it does not read. -/
theorem cycle (coincides : one.Coincides known other)
    (inside : ∀ part ∈ one.reads, known part) :
    (one.cycle .standard).Coincides known (other.cycle .standard) := by
  rw [Machine.reads, List.forall_mem_cons, List.forall_mem_cons, List.forall_mem_cons] at inside
  obtain ⟨first, second, heard, rest⟩ := inside
  rw [Machine.cycle, Machine.cycle, coincides.opcode first second]
  cases fetch : one.opcode with
  | error fault => exact .failing coincides _
  | ok opcode =>
      have decoded := instruction_of_opcode fetch
      have carried : (one.skip.obey opcode (Instruction.ofOpcode? opcode)).Coincides known
          (other.skip.obey opcode (Instruction.ofOpcode? opcode)) := by
        apply coincides.skip.obey
        intro instruction reading
        rw [decoded, Instruction.decode_eq_ok_iff.mpr reading] at rest
        exact rest
      rw [← RoutineTable.instruction?_standard, ← RoutineTable.dispatch_eq,
        ← RoutineTable.dispatch_eq] at carried
      have executed := (carried.mapFailure
        (Fault.during (.executing opcode one.counter))).after
          [.noticed (.executing one.counter opcode)]
      simp only [Machine.execute, ← coincides.counter]
      exact executed.andThen (executed.machine.tick heard)

end Machine.Coincides

end Chip8
