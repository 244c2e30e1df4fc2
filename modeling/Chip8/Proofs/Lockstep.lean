import Chip8.Proofs.Dependence
import Chip8.Proofs.Pacing

/-!
Runs that cannot be told apart. Two emulators that differ only in parts that none of the cycles of
the first reads go through the same cycles. Bytes of memory that are neither fetched nor read, keys
that no instruction asks for and a delay timer that no instruction asks for make no difference.
-/

namespace Chip8

structure Emulator.Coincides (known : Part → Prop) (one other : Emulator) : Prop where
  machine : one.machine.Coincides known other.machine
  table : one.table = other.table
  screenObserver : one.screenObserver = other.screenObserver
  buzzerObserver : one.buzzerObserver = other.buzzerObserver
  verbosity : one.verbosity = other.verbosity

structure Response.Coincides (known : Part → Prop) (one other : Response) : Prop where
  emulator : one.emulator.Coincides known other.emulator
  outputs : one.outputs = other.outputs
  reply : one.reply = other.reply

private theorem Effect.keypad {reading : Option Instruction} {before : Machine} {step : Step Fault}
    (effect : Effect reading before step) : step.machine.keypad = before.keypad := by
  cases effect <;> rfl

/-- Nothing that runs touches the keypad. -/
theorem Machine.keypad_cycle (machine : Machine) (table : RoutineTable) :
    (machine.cycle table).machine.keypad = machine.keypad := by
  cases machine.course_cycle table with
  | unfetched fault fetch outcome =>
      rw [outcome]
      rfl
  | refused opcode fault fetch refusal outcome =>
      rw [outcome]
      rfl
  | completed opcode done fetch carried success outcome =>
      have effect := machine.skip.effect_obey opcode (table.instruction? opcode)
      rw [carried] at effect
      rw [outcome]
      exact effect.keypad

namespace Emulator

def reads (emulator : Emulator) (count : Nat) : List Part :=
  (List.range count).flatMap fun earlier => (emulator.afterCycles earlier).machine.reads

theorem mem_reads_iff {emulator : Emulator} {count : Nat} {part : Part} :
    part ∈ emulator.reads count ↔
      ∃ earlier < count, part ∈ (emulator.afterCycles earlier).machine.reads := by
  simp only [reads, List.mem_flatMap, List.mem_range]

theorem exists_of_mem_reads {emulator : Emulator} {count : Nat} {part : Part}
    (read : part ∈ emulator.reads count) (data : ∀ address, part ≠ .byte address)
    (silent : part ≠ .sound) :
    ∃ earlier < count, ∃ instruction,
      (emulator.afterCycles earlier).machine.instruction = .ok instruction ∧
        part ∈ instruction.reads (emulator.afterCycles earlier).machine := by
  obtain ⟨earlier, within, reads⟩ := mem_reads_iff.mp read
  exact ⟨earlier, within, (Machine.mem_reads_iff data silent).mp reads⟩

def withMemory (emulator : Emulator) (memory : Memory) : Emulator :=
  { emulator with machine := { emulator.machine with memory := memory } }

def withKeypad (emulator : Emulator) (keypad : Keypad) : Emulator :=
  { emulator with machine := { emulator.machine with keypad := keypad } }

def withDelay (emulator : Emulator) (delay : Countdown) : Emulator :=
  { emulator with machine := { emulator.machine with delay := delay } }

/-- Two emulators execute the same opcodes at the same addresses for a number of cycles, and each
of these cycles succeeds or fails alike in both, with the same lines and events. -/
def Lockstep (one other : Emulator) (count : Nat) : Prop :=
  ∀ earlier < count,
    (other.afterCycles earlier).machine.counter = (one.afterCycles earlier).machine.counter ∧
      (other.afterCycles earlier).machine.opcode = (one.afterCycles earlier).machine.opcode ∧
      (other.cycleAfter earlier).reply = (one.cycleAfter earlier).reply ∧
      (other.cycleAfter earlier).outputs = (one.cycleAfter earlier).outputs

private theorem keypad_afterCycles (emulator : Emulator) (count : Nat) :
    (emulator.afterCycles count).machine.keypad = emulator.machine.keypad := by
  apply afterCycles_preserves fun reached => reached.machine.keypad = emulator.machine.keypad
  · intro reached same
    exact (reached.machine.keypad_cycle reached.table).trans same
  · rfl

namespace Coincides

variable {known : Part → Prop} {one other : Emulator}

theorem deliver (coincides : one.Coincides known other) : one.deliver? = other.deliver? := by
  funext signal
  cases signal with
  | noticed notice => simp only [deliver?, coincides.verbosity]
  | redrawn screen => simp only [deliver?, coincides.screenObserver]
  | buzzerStopped => simp only [deliver?, coincides.buzzerObserver]

theorem cycle (coincides : one.Coincides known other) (full : one.table = .standard)
    (inside : ∀ part ∈ one.machine.reads, known part) :
    (one.perform .cycle).Coincides known (other.perform .cycle) := by
  have step : (one.machine.cycle one.table).Coincides known
      (other.machine.cycle other.table) := by
    rw [← coincides.table, full]
    exact coincides.machine.cycle inside
  refine ⟨{ coincides with machine := step.machine }, ?_, ?_⟩
  · simp only [perform, Emulator.cycle, act, coincides.deliver, step.signals]
  · simp only [perform, Emulator.cycle, act, step.failure]

variable {count : Nat} (coincides : one.Coincides known other) (full : one.table = .standard)
  (inside : ∀ part ∈ one.reads count, known part)

include coincides full inside

theorem afterCycles {reached : Nat} (within : reached ≤ count) :
    (one.afterCycles reached).Coincides known (other.afterCycles reached) := by
  induction reached with
  | zero => exact coincides
  | succ reached inductionHypothesis =>
      have here := inductionHypothesis (Nat.le_of_succ_le within)
      rw [afterCycles_succ, afterCycles_succ]
      refine (here.cycle ((one.table_afterCycles reached).trans full) ?_).emulator
      intro part read
      exact inside part (mem_reads_iff.mpr ⟨reached, within, read⟩)

theorem lockstep : one.Lockstep other count := by
  intro earlier within
  have here := coincides.afterCycles full inside (Nat.le_of_lt within)
  have read : ∀ part ∈ (one.afterCycles earlier).machine.reads, known part := fun part read =>
    inside part (mem_reads_iff.mpr ⟨earlier, within, read⟩)
  have response : (one.cycleAfter earlier).Coincides known (other.cycleAfter earlier) :=
    here.cycle ((one.table_afterCycles earlier).trans full) read
  have fetched := List.forall_mem_cons.mp read
  exact ⟨here.machine.counter.symm,
    here.machine.opcode fetched.1 (fetched.2 _ List.mem_cons_self),
    response.reply.symm, response.outputs.symm⟩

end Coincides

theorem Coincides.eq_of_machine {known : Part → Prop} {one other : Emulator}
    (coincides : one.Coincides known other) {machine : Machine}
    (same : other.machine = machine) : other = { one with machine := machine } :=
  Emulator.ext same coincides.table.symm coincides.screenObserver.symm
    coincides.buzzerObserver.symm coincides.verbosity.symm

/-! ### Memory -/

/-- Bytes of memory that a number of cycles neither fetches nor reads make no difference to them,
whatever they are: the cycles stay in lockstep, everything but memory stays the same, and memory
differs at most where it did at first. -/
theorem unread_bytes_do_not_interfere {emulator : Emulator} (full : emulator.table = .standard)
    {count : Nat} {memory : Memory}
    (same : ∀ address, .byte address ∈ emulator.reads count →
      memory.cells[address]? = emulator.machine.memory.cells[address]?) :
    let other := emulator.withMemory memory
    emulator.Lockstep other count ∧
      ∀ reached ≤ count,
        let plain := emulator.afterCycles reached
        ∃ changed : Memory, other.afterCycles reached = plain.withMemory changed ∧
          ∀ address : Nat, changed.cells[address]? ≠ plain.machine.memory.cells[address]? →
            memory.cells[address]? ≠ emulator.machine.memory.cells[address]? := by
  intro other
  -- A byte is known as long as both runs started with the same one.
  let known (part : Part) : Prop := ∀ address, part = .byte address →
    memory.cells[address]? = emulator.machine.memory.cells[address]?
  have machine : emulator.machine.Coincides known other.machine :=
    { Machine.Coincides.refl known emulator.machine with
      byte := fun address placed => (placed address rfl).symm }
  have coincides : emulator.Coincides known other := ⟨machine, rfl, rfl, rfl, rfl⟩
  have inside : ∀ part ∈ emulator.reads count, known part := by
    intro part read address byte
    rw [byte] at read
    exact same address read
  refine ⟨coincides.lockstep full inside, ?_⟩
  intro reached within plain
  have later := coincides.afterCycles full inside within
  refine ⟨(other.afterCycles reached).machine.memory, ?_, ?_⟩
  · apply later.eq_of_machine
    exact later.machine.eq_of_memory fun part data address byte => absurd byte (data address)
  · intro address differs alike
    refine differs (later.machine.byte address ?_).symm
    intro place byte
    cases byte
    exact alike

/-- The program points to its end and reads one byte there. The byte after that makes no
difference. -/
theorem unread_bytes_do_not_interfere_restore :
    let emulator := holding [0xA3, 0x00, 0xF0, 0x65]
    let memory := emulator.machine.memory.overwrite 0x301 [7]
    emulator.table = .standard ∧
      (∀ address, .byte address ∈ emulator.reads 2 →
        memory.cells[address]? = emulator.machine.memory.cells[address]?) ∧
      emulator.Lockstep (emulator.withMemory memory) 2 := by
  intro emulator memory
  have full : emulator.table = .standard := rfl
  have unread : .byte 0x301 ∉ emulator.reads 2 := by decide +kernel
  have same : ∀ address, .byte address ∈ emulator.reads 2 →
      memory.cells[address]? = emulator.machine.memory.cells[address]? := by
    intro address read
    have elsewhere : address ≠ 0x301 := fun here => unread (here ▸ read)
    rw [Memory.getElem?_overwrite, if_neg]
    simp only [List.length_singleton]
    omega
  exact ⟨full, same, (unread_bytes_do_not_interfere full same).1⟩

/-! ### Keys and the delay timer -/

private theorem keypad_not_mem_reads {emulator : Emulator} {count : Nat}
    (unasked : ∀ earlier < count, ∀ x,
      let executed := (emulator.afterCycles earlier).machine.instruction
      executed ≠ .ok (.skipOnKey x true) ∧ executed ≠ .ok (.skipOnKey x false) ∧
        executed ≠ .ok (.auxiliary .awaitKey x)) : .keypad ∉ emulator.reads count := by
  intro read
  obtain ⟨earlier, within, instruction, decoded, asks⟩ :=
    exists_of_mem_reads read nofun nofun
  cases Instruction.reads_of_mem asks with
  | skipOnKey x down =>
      obtain ⟨unpressed, unreleased, _⟩ := unasked earlier within x
      cases down with
      | true => exact unpressed decoded
      | false => exact unreleased decoded
  | awaitKey x =>
      obtain ⟨_, _, unawaited⟩ := unasked earlier within x
      exact unawaited decoded

private theorem delay_not_mem_reads {emulator : Emulator} {count : Nat}
    (unasked : ∀ earlier < count, ∀ x,
      (emulator.afterCycles earlier).machine.instruction ≠ .ok (.auxiliary .readDelay x)) :
    .delay ∉ emulator.reads count := by
  intro read
  obtain ⟨earlier, within, instruction, decoded, asks⟩ :=
    exists_of_mem_reads read nofun nofun
  cases Instruction.reads_of_mem asks with
  | delay x => exact unasked earlier within x decoded

/-- Keys make no difference to cycles that execute no instruction that asks for them, and the delay
timer makes none but to itself as long as no instruction reads it. -/
theorem unasked_inputs_do_not_interfere {emulator : Emulator} (full : emulator.table = .standard)
    (count : Nat) :
    let executed (earlier : Nat) := (emulator.afterCycles earlier).machine.instruction
    (∀ keypad,
      (∀ earlier < count, ∀ x,
        executed earlier ≠ .ok (.skipOnKey x true) ∧ executed earlier ≠ .ok (.skipOnKey x false) ∧
          executed earlier ≠ .ok (.auxiliary .awaitKey x)) →
      let other := emulator.withKeypad keypad
      emulator.Lockstep other count ∧
        other.afterCycles count = (emulator.afterCycles count).withKeypad keypad ∧
        (emulator.afterCycles count).machine.keypad = emulator.machine.keypad) ∧
      ∀ delay,
        (∀ earlier < count, ∀ x, executed earlier ≠ .ok (.auxiliary .readDelay x)) →
        let other := emulator.withDelay delay
        emulator.Lockstep other count ∧
          ∃ changed,
            other.afterCycles count = (emulator.afterCycles count).withDelay changed := by
  intro executed
  constructor
  · intro keypad unasked other
    have machine : emulator.machine.Coincides (· ≠ .keypad) other.machine :=
      { Machine.Coincides.refl (· ≠ .keypad) emulator.machine with
        keypad := fun impossible => absurd rfl impossible }
    have coincides : emulator.Coincides (· ≠ .keypad) other := ⟨machine, rfl, rfl, rfl, rfl⟩
    have inside : ∀ part ∈ emulator.reads count, part ≠ .keypad := fun part read same =>
      keypad_not_mem_reads unasked (same ▸ read)
    have later := coincides.afterCycles full inside (Nat.le_refl count)
    refine ⟨coincides.lockstep full inside, ?_, emulator.keypad_afterCycles count⟩
    refine (later.eq_of_machine later.machine.eq_of_keypad).trans ?_
    rw [keypad_afterCycles]
    rfl
  · intro delay unasked other
    have machine : emulator.machine.Coincides (· ≠ .delay) other.machine :=
      { Machine.Coincides.refl (· ≠ .delay) emulator.machine with
        delay := fun impossible => absurd rfl impossible }
    have coincides : emulator.Coincides (· ≠ .delay) other := ⟨machine, rfl, rfl, rfl, rfl⟩
    have inside : ∀ part ∈ emulator.reads count, part ≠ .delay := fun part read same =>
      delay_not_mem_reads unasked (same ▸ read)
    have later := coincides.afterCycles full inside (Nat.le_refl count)
    refine ⟨coincides.lockstep full inside, (other.afterCycles count).machine.delay, ?_⟩
    exact later.eq_of_machine later.machine.eq_of_delay

/-- A program that clears the screen and sets the delay timer asks neither for keys nor for the
timer. -/
theorem unasked_inputs_do_not_interfere_set_delay :
    let emulator := holding [0x00, 0xE0, 0xF0, 0x15]
    let executed (earlier : Nat) := (emulator.afterCycles earlier).machine.instruction
    emulator.table = .standard ∧ executed 0 = .ok .clearScreen ∧
      executed 1 = .ok (.auxiliary .setDelay 0) ∧
      emulator.Lockstep (emulator.withKeypad (Keypad.released.setIndex 3 true)) 2 ∧
      emulator.Lockstep (emulator.withDelay { value := 9 }) 2 := by
  intro emulator executed
  have full : emulator.table = .standard := rfl
  have first : executed 0 = .ok .clearScreen := by decide +kernel
  have second : executed 1 = .ok (.auxiliary .setDelay 0) := by decide +kernel
  have others (instruction : Instruction)
      (neither : instruction ≠ .clearScreen ∧ instruction ≠ .auxiliary .setDelay 0) :
      ∀ earlier < 2, executed earlier ≠ .ok instruction := by
    intro earlier within same
    have place : earlier = 0 ∨ earlier = 1 := by omega
    rcases place with here | here
    · rw [here, first] at same
      exact neither.1 (Except.ok.inj same).symm
    · rw [here, second] at same
      exact neither.2 (Except.ok.inj same).symm
  obtain ⟨keys, timer⟩ := unasked_inputs_do_not_interfere full 2
  refine ⟨full, first, second, (keys _ ?_).1, (timer _ ?_).1⟩
  · intro earlier within x
    exact ⟨others _ (by simp) earlier within, others _ (by simp) earlier within,
      others _ (by simp) earlier within⟩
  · intro earlier within x
    exact others _ (by simp) earlier within

end Emulator

end Chip8
