import Chip8.Emulator.Moment
import Chip8.Proofs.Effect

/-!
The two timers under the full table. A cycle that succeeds lets both tick once, after its
instruction; a cycle that fails leaves both alone.
-/

namespace Chip8

inductive Clock
  | delay
  | sound
  deriving DecidableEq, Repr

def Clock.setter : Clock → Auxiliary
  | .delay => .setDelay
  | .sound => .setSound

def Instruction.source? (clock : Clock) : Instruction → Option Register
  | .auxiliary operation x => if operation = clock.setter then some x else none
  | _ => none

namespace Machine

def clock (machine : Machine) : Clock → Countdown
  | .delay => machine.delay
  | .sound => machine.sound

def source? (machine : Machine) (clock : Clock) : Option Register :=
  match machine.instruction with
  | .ok instruction => instruction.source? clock
  | .error _ => none

def woundClock (machine : Machine) (clock : Clock) : Countdown :=
  match machine.source? clock with
  | some x => { value := machine.register x }
  | none => machine.clock clock

/-- The machine right before a cycle lets it tick, if the cycle gets so far. -/
def beforeTick? (table : RoutineTable) (machine : Machine) : Option Machine :=
  match machine.opcode with
  | .error _ => none
  | .ok opcode =>
      let step := machine.execute table opcode
      match step.failure with
      | none => some step.machine
      | some _ => none

end Machine

/-! ### One cycle -/

private theorem Auxiliary.clock_execute (operation : Auxiliary) (x : Register) (machine : Machine)
    (clock : Clock) :
    (operation.execute x machine).machine.clock clock =
      if operation = clock.setter then { value := machine.register x }
      else machine.clock clock := by
  cases operation with
  | setDelay => cases clock <;> rfl
  | setSound => cases clock <;> rfl
  | awaitKey =>
      rw [if_neg (by cases clock <;> decide), execute]
      cases machine.keypad.lowest? <;> rfl
  | storeDecimal =>
      rw [if_neg (by cases clock <;> decide), execute]
      cases machine.spanAtIndex 3 <;> rfl
  | saveRegisters =>
      rw [if_neg (by cases clock <;> decide), execute]
      cases machine.spanAtIndex (x.val + 1) <;> rfl
  | restoreRegisters =>
      rw [if_neg (by cases clock <;> decide), execute]
      cases machine.spanAtIndex (x.val + 1) with
      | error fault => rfl
      | ok span => cases clock <;> simp only [Step.quiet, Machine.clock]
  | _ =>
      rw [if_neg (by cases clock <;> decide)]
      rfl

/-- Apart from the instruction that sets it, no instruction touches a clock. -/
theorem Instruction.clock_execute (instruction : Instruction) (machine : Machine)
    (clock : Clock) :
    (instruction.execute machine).machine.clock clock =
      match instruction.source? clock with
      | some x => { value := machine.register x }
      | none => machine.clock clock := by
  cases instruction with
  | leave =>
      simp only [execute]
      cases machine.stack.pop <;> rfl
  | call target =>
      simp only [execute]
      cases machine.stack.push machine.counter <;> rfl
  | skipIfEqual x operand =>
      simp only [execute]
      split <;> rfl
  | skipUnlessEqual x operand =>
      simp only [execute]
      split <;> rfl
  | arithmetic operation x y =>
      simp only [execute, Arithmetic.execute]
      cases operation.flag? (machine.number x) (machine.number y) <;> rfl
  | draw x y height =>
      simp only [execute]
      cases machine.spanAtIndex height.val <;> rfl
  | skipOnKey x down =>
      simp only [execute]
      split <;> rfl
  | auxiliary operation x =>
      rw [execute, Auxiliary.clock_execute, source?]
      split <;> rfl
  | _ => rfl

private theorem Effect.stops {reading : Option Instruction} {before : Machine} {step : Step Fault}
    (effect : Effect reading before step) : step.signals.filter Signal.stops = [] := by
  cases effect <;> rfl

inductive Beat (table : RoutineTable) (machine : Machine) (step : Step Failure) : Prop
  | missed (failed : step.failure.isNone = false) (unready : machine.beforeTick? table = none)
      (clocks : ∀ clock, step.machine.clock clock = machine.clock clock)
      (silent : step.signals.filter Signal.stops = []) : Beat table machine step
  | ticked (ready : Machine) (completes : step.failure.isNone = true)
      (reached : machine.beforeTick? table = some ready)
      (wound : ∀ clock, ready.clock clock = machine.woundClock clock)
      (clocks : ∀ clock, step.machine.clock clock = (ready.clock clock).tick.1)
      (stops : step.signals.filter Signal.stops =
        if ready.sound.value == 1 then [.buzzerStopped] else []) : Beat table machine step

namespace Machine

theorem clock_tick (machine : Machine) (clock : Clock) :
    machine.tick.machine.clock clock = (machine.clock clock).tick.1 := by
  cases clock <;> rfl

theorem stops_tick (machine : Machine) :
    machine.tick.signals.filter Signal.stops =
      if machine.sound.value == 1 then [.buzzerStopped] else [] := by
  simp only [tick, Step.sending, Countdown.reaches_zero_tick]
  split <;> rfl

private theorem beat_cycle (machine : Machine) :
    Beat .standard machine (machine.cycle .standard) := by
  cases machine.course_cycle .standard with
  | unfetched fault fetch outcome =>
      rw [outcome]
      exact .missed rfl (by rw [beforeTick?, fetch]) (fun _ => rfl) rfl
  | refused opcode fault fetch refusal outcome =>
      have unready : machine.beforeTick? .standard = none := by
        rw [beforeTick?, fetch]
        simp only [execute, RoutineTable.dispatch_eq, refusal]
        rfl
      rw [outcome]
      exact .missed rfl unready (fun _ => rfl) rfl
  | completed opcode done fetch carried success outcome =>
      have reached : machine.beforeTick? .standard = some done.machine := by
        rw [beforeTick?, fetch]
        simp only [execute, RoutineTable.dispatch_eq, carried, Step.after, Step.mapFailure, success]
        rfl
      have wound (clock : Clock) : done.machine.clock clock = machine.woundClock clock := by
        have decoded := instruction_of_opcode fetch
        rw [RoutineTable.instruction?_standard] at carried
        rw [Instruction.decode] at decoded
        rw [woundClock, source?, decoded, ← carried]
        cases Instruction.ofOpcode? opcode with
        | none => rfl
        | some instruction => exact instruction.clock_execute machine.skip clock
      have effect := machine.skip.effect_obey opcode (RoutineTable.standard.instruction? opcode)
      rw [carried] at effect
      rw [outcome]
      refine .ticked done.machine rfl reached wound done.machine.clock_tick ?_
      rw [Step.after, List.filter_append, ← done.machine.stops_tick, List.filter_cons_of_neg]
      · rw [effect.stops, List.nil_append]
      · exact Bool.false_ne_true

theorem woundClock_of_unset {machine : Machine} {clock : Clock}
    (unset : (machine.source? clock).isSome = false) :
    machine.woundClock clock = machine.clock clock := by
  rw [woundClock]
  cases source : machine.source? clock with
  | none => rfl
  | some x =>
      rw [source] at unset
      cases unset

end Machine

/-! ### One moment -/

/-- Whether the host sets a clock by a call that does not let the machine run. -/
def Call.sets (clock : Clock) : Call → Bool
  | .reset => true
  | .setDelay _ => clock = .delay
  | .setSound _ => clock = .sound
  | _ => false

theorem Emulator.clock_perform {call : Call} {clock : Clock} (idle : call.runs = false)
    (unset : call.sets clock = false) (emulator : Emulator) :
    (emulator.perform call).emulator.machine.clock clock = emulator.machine.clock clock := by
  cases call with
  | reset => cases unset
  | load program =>
      exact emulator.machine.view_load (Machine.clock · clock) (fun _ _ _ => rfl) program
  | loadFrom source =>
      exact emulator.machine.view_loadFrom (Machine.clock · clock) (fun _ _ _ => rfl) source
  | cycle => cases idle
  | frame count => cases idle
  | setDelay value =>
      cases clock with
      | delay => cases unset
      | sound => rfl
  | setSound value =>
      cases clock with
      | delay => rfl
      | sound => cases unset
  | _ => rfl

namespace Moment

/-- Whether the moment sets a clock, by a call of the host or by an instruction. -/
def sets (clock : Clock) (moment : Moment) : Bool :=
  match moment.call with
  | .cycle => (moment.before.machine.source? clock).isSome
  | call => call.sets clock

private theorem sets_of_idle {moment : Moment} (idle : moment.call.runs = false) (clock : Clock) :
    moment.sets clock = moment.call.sets clock := by
  rw [sets]
  split
  · next cycles =>
      rw [cycles] at idle
      cases idle
  · rfl

variable {moment : Moment} {clock : Clock} (full : moment.before.table = .standard)

include full

theorem beat : Beat moment.before.table moment.before.machine
    (moment.before.machine.cycle moment.before.table) := by
  rw [full]
  exact moment.before.machine.beat_cycle

theorem clock_of_failure (cycles : moment.call = .cycle) (failed : moment.completes = false)
    (clock : Clock) : moment.after.machine.clock clock = moment.before.machine.clock clock := by
  rw [completes_of_cycle cycles] at failed
  rw [machine_after_of_cycle cycles]
  cases beat full with
  | missed _ _ clocks _ => exact clocks clock
  | ticked _ completes _ _ _ _ =>
      rw [completes] at failed
      cases failed

theorem clock_after (single : moment.call.Single) (unset : moment.sets clock = false) :
    moment.after.machine.clock clock =
      if moment.completes then (moment.before.machine.clock clock).tick.1
      else moment.before.machine.clock clock := by
  rcases single.cycle_or_idle with cycles | idle
  · rw [sets, cycles] at unset
    rw [machine_after_of_cycle cycles, completes_of_cycle cycles]
    cases beat full with
    | missed failed _ clocks _ =>
        rw [failed]
        exact clocks clock
    | ticked ready completes _ wound clocks _ =>
        rw [completes, clocks, wound, Machine.woundClock_of_unset unset]
        rfl
  · rw [completes_of_idle idle]
    rw [sets_of_idle idle] at unset
    exact moment.before.clock_perform idle unset

end Moment

/-- As long as nobody sets a clock, it counts down the cycles that succeed. -/
theorem Emulator.Run.clock {start final : Emulator} {moments : List Moment} {clock : Clock}
    (run : Run start moments final) (full : start.table = .standard)
    (unset : ∀ moment ∈ moments, moment.sets clock = false) :
    (final.machine.clock clock).value.toNat =
      (start.machine.clock clock).value.toNat - (moments.filter Moment.completes).length := by
  induction run with
  | nil emulator => rfl
  | cons moment single later inductionHypothesis =>
      obtain ⟨here, onward⟩ := List.forall_mem_cons.mp unset
      rw [inductionHypothesis (moment.table_after.trans full) onward,
        moment.clock_after full single here]
      cases completes : moment.completes with
      | false => rw [List.filter_cons_of_neg (Bool.eq_false_iff.mp completes)]; rfl
      | true =>
          rw [List.filter_cons_of_pos completes, List.length_cons, if_pos rfl,
            Countdown.toNat_tick, Nat.sub_sub, Nat.add_comm]

end Chip8
