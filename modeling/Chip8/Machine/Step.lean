import Chip8.Machine.Basic
import Chip8.Machine.Notice

/-!
The outcome of an action on a machine: the machine it leaves behind, the signals it sent
in order, and the failure that ended it, if one did.
-/

namespace Chip8

inductive Signal
  | noticed (notice : Notice)
  | redrawn (screen : Screen)
  | buzzerStopped

@[ext]
structure Step (ε : Type) where
  machine : Machine
  signals : List Signal
  failure : Option ε

namespace Step

variable {ε δ : Type}

def quiet (machine : Machine) : Step ε :=
  { machine := machine
    signals := []
    failure := none }

def sending (machine : Machine) (signals : List Signal) : Step ε :=
  { machine := machine
    signals := signals
    failure := none }

def failing (machine : Machine) (failure : ε) : Step ε :=
  { machine := machine
    signals := []
    failure := some failure }

/-- Reports an opcode that stands for nothing, and changes nothing. -/
def rejecting (machine : Machine) (opcode : Opcode) : Step ε :=
  sending machine [.noticed (.unimplemented opcode)]

/-- Puts signals sent earlier in front. -/
def after (signals : List Signal) (step : Step ε) : Step ε :=
  { step with signals := signals ++ step.signals }

def andThen (step : Step ε) (next : Machine → Step ε) : Step ε :=
  match step.failure with
  | some _ => step
  | none => (next step.machine).after step.signals

def mapFailure (step : Step ε) (rename : ε → δ) : Step δ :=
  { machine := step.machine
    signals := step.signals
    failure := step.failure.map rename }

theorem after_andThen (signals : List Signal) (step : Step ε) (next : Machine → Step ε) :
    (step.after signals).andThen next = (step.andThen next).after signals := by
  cases step with
  | mk machine sent failure =>
      cases failure <;> simp [after, andThen]

theorem andThen_assoc (step : Step ε) (first second : Machine → Step ε) :
    (step.andThen first).andThen second =
      step.andThen fun machine => (first machine).andThen second := by
  cases step with
  | mk machine sent failure =>
      cases failure with
      | none =>
          simp only [andThen]
          exact after_andThen sent (first machine) second
      | some failure => rfl

theorem quiet_andThen (machine : Machine) (next : Machine → Step ε) :
    (quiet machine).andThen next = next machine := rfl

end Step

end Chip8
