import Chip8.Machine.Run
import Chip8.Proofs.Meaning

/-!
What one opcode and one cycle can do. A single inversion lemma lists the shapes of outcome that an
opcode has, whatever it is read as and also where it is refused; another lists the courses of a
cycle. What a run preserves follows from these two.
-/

namespace Chip8

/-- Where execution goes on after an opcode that leaves the stack alone. -/
inductive Successor (counter : UInt16) : UInt16 → Prop
  | next : Successor counter counter
  | skipped : Successor counter (counter + 2)
  | awaited : Successor counter (counter - 2)
  | jumped (target : Nat) (near : target ≤ 0x10FE) : Successor counter (UInt16.ofNat target)

inductive Effect (reading : Option Instruction) (before : Machine) : Step Fault → Prop
  | refused (fault : Fault) : Effect reading before (.failing before fault)
  | reported (notice : Notice) : Effect reading before (.sending before [.noticed notice])
  | moved (counter : UInt16) (successor : Successor before.counter counter) :
      Effect reading before (.quiet { before with counter := counter })
  | computed (registers : Vector UInt8 16) (entropy : Entropy) :
      Effect reading before
        (.quiet { before with registers := registers, entropy := entropy })
  | pointed (target : Nat) (near : target ≤ 0xFFF) :
      Effect reading before (.quiet { before with index := UInt16.ofNat target })
  | timed (delay sound : Countdown) :
      Effect reading before (.quiet { before with delay := delay, sound := sound })
  | stored (memory : Memory) : Effect reading before (.quiet { before with memory := memory })
  | shown (registers : Vector UInt8 16) (panel : Panel) :
      Effect reading before
        (.sending { before with registers := registers, panel := panel }
          [.redrawn panel.screen])
  | called (target : Address) (stack : CallStack) (calls : reading = some (.call target))
      (pushed : before.stack.push before.counter = .ok stack) :
      Effect reading before
        (.quiet { before with stack := stack, counter := UInt16.ofNat target.val })
  | left (address : UInt16) (stack : CallStack) (leaves : reading = some .leave)
      (popped : before.stack.pop = .ok (address, stack)) :
      Effect reading before (.quiet { before with stack := stack, counter := address })

namespace Effect

private theorem of_auxiliary (operation : Auxiliary) (x : Register) (machine : Machine) :
    Effect (some (.auxiliary operation x)) machine (operation.execute x machine) := by
  cases operation with
  | readDelay => exact .computed _ machine.entropy
  | awaitKey =>
      simp only [Auxiliary.execute]
      cases machine.keypad.lowest? with
      | none => exact .moved _ .awaited
      | some key => exact .computed _ machine.entropy
  | setDelay => exact .timed _ machine.sound
  | setSound => exact .timed machine.delay _
  | addIndex => exact .pointed _ (Nat.le_of_lt_succ (Nat.mod_lt _ (by decide)))
  | pointGlyph =>
      have digit := Nat.mod_lt (machine.number x) (show 0 < 16 by decide)
      refine .pointed _ ?_
      simp only [glyphStart, Glyph.height]
      omega
  | storeDecimal =>
      simp only [Auxiliary.execute]
      cases machine.spanAtIndex 3 with
      | error fault => exact .refused fault
      | ok span => exact .stored _
  | saveRegisters =>
      simp only [Auxiliary.execute]
      cases machine.spanAtIndex (x.val + 1) with
      | error fault => exact .refused fault
      | ok span => exact .stored _
  | restoreRegisters =>
      simp only [Auxiliary.execute]
      cases machine.spanAtIndex (x.val + 1) with
      | error fault => exact .refused fault
      | ok span => exact .computed _ machine.entropy

theorem of_instruction (instruction : Instruction) (machine : Machine) :
    Effect (some instruction) machine (instruction.execute machine) := by
  cases instruction with
  | callSystem target => exact .reported _
  | clearScreen => exact .shown machine.registers _
  | leave =>
      simp only [Instruction.execute]
      cases popped : machine.stack.pop with
      | error fault => exact .refused fault
      | ok result => exact .left result.1 result.2 rfl popped
  | jump target => exact .moved _ (.jumped target.val (by have near := target.isLt; omega))
  | call target =>
      simp only [Instruction.execute]
      cases pushed : machine.stack.push machine.counter with
      | error fault => exact .refused fault
      | ok stack => exact .called target stack rfl pushed
  | skipIfEqual x operand =>
      simp only [Instruction.execute]
      split
      · exact .moved _ .skipped
      · exact .moved _ .next
  | skipUnlessEqual x operand =>
      simp only [Instruction.execute]
      split
      · exact .moved _ .next
      · exact .moved _ .skipped
  | load x value => exact .computed _ machine.entropy
  | addImmediate x value => exact .computed _ machine.entropy
  | arithmetic operation x y =>
      simp only [Instruction.execute, Arithmetic.execute]
      cases operation.flag? (machine.number x) (machine.number y) with
      | none => exact .computed _ machine.entropy
      | some flag => exact .computed _ machine.entropy
  | loadIndex target => exact .pointed _ (Nat.le_of_lt_succ target.isLt)
  | jumpOffset base =>
      have near := base.isLt
      have offset := (machine.register Register.base).toNat_lt
      refine .moved _ (.jumped (base.val + machine.number Register.base) ?_)
      rw [Machine.number]
      omega
  | random x mask => exact .computed _ machine.entropy.advance
  | draw x y height =>
      simp only [Instruction.execute]
      cases machine.spanAtIndex height.val with
      | error fault => exact .refused fault
      | ok span => exact .shown _ _
  | skipOnKey x down =>
      simp only [Instruction.execute]
      split
      · exact .moved _ .skipped
      · exact .moved _ .next
  | auxiliary operation x => exact of_auxiliary operation x machine

end Effect

namespace Machine

/-- What an opcode can do, whatever it is read as. -/
theorem effect_obey (machine : Machine) (opcode : Opcode) (reading : Option Instruction) :
    Effect reading machine (machine.obey opcode reading) := by
  cases reading with
  | none => exact .reported _
  | some instruction => exact Effect.of_instruction instruction machine

private theorem obey_eq_failing {machine : Machine} {opcode : Opcode} {reading : Option Instruction}
    {fault : Fault} (failed : (machine.obey opcode reading).failure = some fault) :
    machine.obey opcode reading = .failing machine fault := by
  generalize outcome : machine.obey opcode reading = step at failed
  have effect := machine.effect_obey opcode reading
  rw [outcome] at effect
  cases effect with
  | refused other => rw [← Option.some.inj failed]
  | _ => cases failed

/-! ### Fetching -/

/-- An opcode is fetched exactly where both of its bytes lie inside memory. -/
theorem opcode_of_bytes {machine : Machine} {high low : UInt8}
    (first : machine.memory.cells[machine.counter.toNat]? = some high)
    (second : machine.memory.cells[machine.counter.toNat + 1]? = some low) :
    machine.opcode = .ok (Opcode.ofBytes high low) := by
  rw [opcode, Memory.read, first, Memory.read, second]

theorem opcode_of_le (machine : Machine) (outside : memorySize ≤ machine.counter.toNat + 1) :
    machine.opcode = .error (.addressOutOfBounds (max machine.counter.toNat memorySize)) := by
  by_cases first : machine.counter.toNat < memorySize
  · have last : max machine.counter.toNat memorySize = machine.counter.toNat + 1 := by omega
    obtain ⟨high, present⟩ := machine.memory.exists_byte first
    rw [opcode, Memory.read, present, Memory.read_of_le _ outside, last]
  · have beyond := Nat.le_of_not_lt first
    rw [opcode, Memory.read_of_le _ beyond, Nat.max_eq_left beyond]

theorem counter_le_of_opcode {machine : Machine} {opcode : Opcode}
    (fetch : machine.opcode = .ok opcode) : machine.counter.toNat ≤ 0xFFE := by
  by_contra beyond
  have outside : memorySize ≤ machine.counter.toNat + 1 := by
    rw [memorySize]
    omega
  rw [opcode_of_le machine outside] at fetch
  cases fetch

theorem instruction_of_opcode {machine : Machine} {opcode : Opcode}
    (fetch : machine.opcode = .ok opcode) : machine.instruction = Instruction.decode opcode := by
  rw [instruction, fetch]

theorem counter_le_of_instruction {machine : Machine} {instruction : Instruction}
    (decoded : machine.instruction = .ok instruction) : machine.counter.toNat ≤ 0xFFE := by
  rw [Machine.instruction] at decoded
  cases fetch : machine.opcode with
  | error fault =>
      rw [fetch] at decoded
      cases decoded
  | ok opcode => exact counter_le_of_opcode fetch

theorem counter_skip (machine : Machine) (below : machine.counter.toNat + 2 < 65536) :
    machine.skip.counter.toNat = machine.counter.toNat + 2 := by
  change (machine.counter + 2).toNat = _
  rw [UInt16.toNat_add]
  exact Nat.mod_eq_of_lt below

end Machine

/-! ### Cycles -/

inductive Course (table : RoutineTable) (machine : Machine) (step : Step Failure) : Prop
  | unfetched (fault : Fault) (fetch : machine.opcode = .error fault)
      (outcome : step = .failing machine (fault.during .fetching))
  | refused (opcode : Opcode) (fault : Fault) (fetch : machine.opcode = .ok opcode)
      (refusal : machine.skip.obey opcode (table.instruction? opcode) =
        .failing machine.skip fault)
      (outcome : step =
        { machine := machine.skip
          signals := [.noticed (.executing machine.counter opcode)]
          failure := some (fault.during (.executing opcode machine.counter)) })
  | completed (opcode : Opcode) (done : Step Fault) (fetch : machine.opcode = .ok opcode)
      (carried : machine.skip.obey opcode (table.instruction? opcode) = done)
      (success : done.failure = none)
      (outcome : step =
        (done.machine.tick).after (.noticed (.executing machine.counter opcode) :: done.signals))

theorem Machine.course_cycle (table : RoutineTable) (machine : Machine) :
    Course table machine (machine.cycle table) := by
  unfold Machine.cycle
  cases fetch : machine.opcode with
  | error fault => exact .unfetched fault fetch rfl
  | ok opcode =>
      simp only [Machine.execute, RoutineTable.dispatch_eq]
      cases failed : (machine.skip.obey opcode (table.instruction? opcode)).failure with
      | some fault =>
          have refusal := Machine.obey_eq_failing failed
          exact .refused opcode fault fetch refusal (by rw [refusal]; rfl)
      | none =>
          refine .completed opcode _ fetch rfl failed ?_
          simp only [Step.andThen, Step.after, Step.mapFailure, failed, Option.map_none,
            List.singleton_append]

end Chip8
