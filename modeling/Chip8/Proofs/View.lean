import Chip8.Proofs.Meaning
import Chip8.Machine.Program
import Chip8.Machine.Run

/-!
Views of machines. A view leaves out what does not count, and an action respects a view if what the
view leaves out makes no difference to it: machines that look the same then send the same signals,
fail alike, and still look the same. Cycles and frames respect a view that every instruction
respects.
-/

namespace Chip8

/-- The step with the machine that it leaves seen through a view. -/
def Step.through {ε : Type} (view : Machine → Machine) (step : Step ε) : Step ε :=
  { step with machine := view step.machine }

/-- What the view leaves out makes no difference to the action, except for what it leaves out. -/
def Respects {ε : Type} (view : Machine → Machine) (action : Machine → Step ε) : Prop :=
  ∀ machine, (action (view machine)).through view = (action machine).through view

namespace Step

variable {ε : Type} {view : Machine → Machine} {one other : Step ε}

theorem failure_of_through (same : one.through view = other.through view) :
    one.failure = other.failure :=
  (Step.ext_iff.mp same).2.2

theorem signals_of_through (same : one.through view = other.through view) :
    one.signals = other.signals :=
  (Step.ext_iff.mp same).2.1

theorem machine_of_through (same : one.through view = other.through view) :
    view one.machine = view other.machine :=
  (Step.ext_iff.mp same).1

end Step

namespace Respects

variable {ε δ : Type} {view : Machine → Machine} {action next : Machine → Step ε}

theorem eq_of_view (respects : Respects view action) {one other : Machine}
    (same : view one = view other) : (action one).through view = (action other).through view := by
  rw [← respects one, ← respects other, same]

private theorem mapFailure (respects : Respects view action) (rename : ε → δ) :
    Respects view fun machine => (action machine).mapFailure rename := by
  intro machine
  exact congrArg (Step.mapFailure · rename) (respects machine)

private theorem after (respects : Respects view action) (signals : List Signal) :
    Respects view fun machine => (action machine).after signals := by
  intro machine
  exact congrArg (Step.after signals) (respects machine)

theorem andThen (respects : Respects view action) (onward : Respects view next) :
    Respects view fun machine => (action machine).andThen next := by
  intro machine
  simp only [Step.andThen, Step.failure_of_through (respects machine),
    Step.signals_of_through (respects machine)]
  cases (action machine).failure with
  | some failure => exact respects machine
  | none =>
      exact congrArg (Step.after _)
        (onward.eq_of_view (Step.machine_of_through (respects machine)))

end Respects

/-- A view that leaves in what a cycle itself looks at. -/
structure Transparent (view : Machine → Machine) : Prop where
  opcode : ∀ machine, (view machine).opcode = machine.opcode
  counter : ∀ machine, (view machine).counter = machine.counter
  skip : ∀ machine, (view machine).skip = view machine.skip
  idempotent : ∀ machine, view (view machine) = view machine
  tick : Respects view Machine.tick
  execute : ∀ instruction : Instruction, Respects view fun machine => instruction.execute machine

namespace Transparent

variable {view : Machine → Machine} (transparent : Transparent view)

include transparent

theorem obey (opcode : Opcode) (reading : Option Instruction) :
    Respects view fun machine => machine.obey opcode reading := by
  intro machine
  cases reading with
  | none =>
      simp only [Machine.obey, Step.rejecting, Step.sending, Step.through,
        transparent.idempotent machine]
  | some instruction => exact transparent.execute instruction machine

theorem cycle (table : RoutineTable) : Respects view (Machine.cycle table) := by
  intro machine
  rw [Machine.cycle, Machine.cycle, transparent.opcode machine]
  cases machine.opcode with
  | error fault => simp only [Step.failing, Step.through, transparent.idempotent machine]
  | ok opcode =>
      have obeyed := transparent.obey opcode (table.instruction? opcode)
      simp only [Machine.execute, RoutineTable.dispatch_eq, transparent.counter machine,
        transparent.skip machine]
      exact ((obeyed.mapFailure _).after _).andThen transparent.tick machine.skip

theorem frame (table : RoutineTable) (count : Nat) :
    Respects view fun machine => machine.frame table count := by
  induction count with
  | zero =>
      intro machine
      simp only [Machine.frame_zero, Step.quiet, Step.through, transparent.idempotent machine]
  | succ count inductionHypothesis =>
      simp only [Machine.frame_succ]
      exact (transparent.cycle table).andThen inductionHypothesis

theorem loadFrom (loads : ∀ program, Respects view (Machine.load program)) (source : Source) :
    Respects view (Machine.loadFrom source) := by
  intro machine
  unfold Machine.loadFrom
  cases source.contents with
  | ok program => exact loads program machine
  | error failure => simp only [Step.failing, Step.through, transparent.idempotent machine]

end Transparent

end Chip8
