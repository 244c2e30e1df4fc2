import Chip8.Routine.Table

/-!
Running a machine under a routine table. A cycle fetches an opcode, carries it out and
lets both timers tick; a frame is a number of cycles, cut short by the first failure.
-/

namespace Chip8.Machine

def opcode (machine : Machine) : Except Fault Opcode :=
  match machine.memory.read machine.counter.toNat with
  | .error fault => .error fault
  | .ok high =>
      match machine.memory.read (machine.counter.toNat + 1) with
      | .error fault => .error fault
      | .ok low => .ok (Opcode.ofBytes high low)

def instruction (machine : Machine) : Except Fault Instruction :=
  match machine.opcode with
  | .error fault => .error fault
  | .ok opcode => Instruction.decode opcode

/-- The buzzer stops when the sound timer reaches zero. -/
def tick (machine : Machine) : Step Failure :=
  let delay := machine.delay.tick
  let sound := machine.sound.tick
  .sending { machine with delay := delay.1, sound := sound.1 }
    (if sound.2 then [.buzzerStopped] else [])

/-- Carries out a fetched opcode, with the program counter already past it. -/
def execute (table : RoutineTable) (opcode : Opcode) (machine : Machine) : Step Failure :=
  let step := table.dispatch opcode machine.skip
  (step.mapFailure (Fault.during (.executing opcode machine.counter))).after
    [.noticed (.executing machine.counter opcode)]

def cycle (table : RoutineTable) (machine : Machine) : Step Failure :=
  match machine.opcode with
  | .error fault => .failing machine (fault.during .fetching)
  | .ok opcode => (machine.execute table opcode).andThen tick

/-- Runs cycles with the signals sent so far at hand, latest first. -/
def frameFrom (table : RoutineTable) : Nat → List Signal → Machine → Step Failure
  | 0, sent, machine => .sending machine sent.reverse
  | count + 1, sent, machine =>
      let step := machine.cycle table
      let sent := step.signals.reverseAux sent
      match step.failure with
      | some failure =>
          { machine := step.machine
            signals := sent.reverse
            failure := some failure }
      | none => frameFrom table count sent step.machine

def frame (table : RoutineTable) (count : Nat) (machine : Machine) : Step Failure :=
  machine.frameFrom table count []

theorem frameFrom_eq_after (table : RoutineTable) (count : Nat) (sent : List Signal)
    (machine : Machine) :
    machine.frameFrom table count sent = (machine.frame table count).after sent.reverse := by
  induction count generalizing sent machine with
  | zero => simp [frameFrom, frame, Step.after, Step.sending]
  | succ count inductionHypothesis =>
      simp only [frameFrom, frame]
      split
      · simp [Step.after, List.reverseAux_eq]
      · rw [inductionHypothesis, inductionHypothesis (List.reverseAux _ _)]
        simp [Step.after, List.reverseAux_eq]

theorem frame_zero (table : RoutineTable) (machine : Machine) :
    machine.frame table 0 = .quiet machine := rfl

theorem frame_succ (table : RoutineTable) (count : Nat) (machine : Machine) :
    machine.frame table (count + 1) = (machine.cycle table).andThen (frame table count) := by
  rw [frame, frameFrom]
  simp only [Step.andThen]
  split
  · next failure failed =>
      cases outcome : machine.cycle table
      simp_all [List.reverseAux_eq]
  · next continues =>
      rw [frameFrom_eq_after, continues]
      simp [List.reverseAux_eq]

theorem frame_add (table : RoutineTable) (first second : Nat) (machine : Machine) :
    machine.frame table (first + second) =
      (machine.frame table first).andThen (frame table second) := by
  induction first generalizing machine with
  | zero =>
      rw [Nat.zero_add, frame_zero, Step.quiet_andThen]
  | succ first inductionHypothesis =>
      rw [Nat.succ_add, frame_succ, frame_succ, Step.andThen_assoc]
      congr 1
      funext next
      exact inductionHypothesis next

end Chip8.Machine
