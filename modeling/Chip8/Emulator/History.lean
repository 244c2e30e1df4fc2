import Chip8.Emulator.Call

/-!
Histories of an emulator: what host calls, one after the other, lead to. A property that every
call preserves holds throughout a history.
-/

namespace Chip8

def Call.runs : Call → Bool
  | .cycle => true
  | .frame _ => true
  | _ => false

def Call.restarts : Call → Bool
  | .reset => true
  | .load program => decide (program.length ≤ programCapacity)
  | .loadFrom source =>
      match source.contents with
      | .ok program => decide (program.length ≤ programCapacity)
      | .error _ => false
  | _ => false

namespace Machine

theorem frame_preserves {table : RoutineTable} (property : Machine → Prop)
    (cycles : ∀ machine, property machine → property (machine.cycle table).machine)
    (count : Nat) {machine : Machine} (holds : property machine) :
    property (machine.frame table count).machine := by
  induction count generalizing machine with
  | zero => exact holds
  | succ count inductionHypothesis =>
      rw [frame_succ, Step.andThen]
      have next := cycles machine holds
      split
      · exact next
      · exact inductionHypothesis next

/-- Loading touches memory and the program counter alone, so a view of the rest stays the same. -/
theorem view_load {α : Type} (view : Machine → α)
    (blind : ∀ machine memory counter,
      view { machine with memory := memory, counter := counter } = view machine)
    (program : List UInt8) (machine : Machine) :
    view (machine.load program).machine = view machine := by
  unfold load
  split
  · rfl
  · exact blind machine _ _

theorem view_loadFrom {α : Type} (view : Machine → α)
    (blind : ∀ machine memory counter,
      view { machine with memory := memory, counter := counter } = view machine)
    (source : Source) (machine : Machine) :
    view (machine.loadFrom source).machine = view machine := by
  unfold loadFrom
  split
  · exact view_load view blind _ machine
  · rfl

theorem counter_load_of_le {program : List UInt8} (fits : program.length ≤ programCapacity)
    (machine : Machine) :
    (machine.load program).machine.counter = UInt16.ofNat programStart :=
  congrArg (fun step => step.machine.counter) (load_of_le fits machine)

theorem machine_load_of_lt {program : List UInt8} (tooLarge : programCapacity < program.length)
    (machine : Machine) : (machine.load program).machine = machine :=
  congrArg Step.machine (load_of_lt tooLarge machine)

end Machine

namespace Emulator

/-- An emulator with the full table at power-up, with a program in place. -/
def holding (program : List UInt8) : Emulator :=
  let entropy := Entropy.seeded 0
  { unobserved .standard entropy none with
    machine :=
      { Machine.initial entropy with memory := Memory.initial.overwrite programStart program } }

def after (emulator : Emulator) : List Call → Emulator
  | [] => emulator
  | call :: rest => (emulator.perform call).emulator.after rest

theorem after_preserves (property : Emulator → Prop) {calls : List Call}
    (step : ∀ emulator, ∀ call ∈ calls, property emulator →
      property (emulator.perform call).emulator)
    {emulator : Emulator} (holds : property emulator) : property (emulator.after calls) := by
  induction calls generalizing emulator with
  | nil => exact holds
  | cons call rest inductionHypothesis =>
      apply inductionHypothesis
      · intro emulator later member
        exact step emulator later (List.mem_cons_of_mem call member)
      · exact step emulator call List.mem_cons_self holds

theorem reply_act_done_iff {emulator : Emulator} {action : Machine → Step Failure} :
    (emulator.act action).reply = .done ↔ (action emulator.machine).failure = none := by
  simp only [act]
  cases (action emulator.machine).failure with
  | none => simp only
  | some failure => simp only [reduceCtorEq]

theorem reply_act_failed_iff {emulator : Emulator} {action : Machine → Step Failure}
    {failure : Failure} :
    (emulator.act action).reply = .failed failure ↔
      (action emulator.machine).failure = some failure := by
  simp only [act]
  cases (action emulator.machine).failure with
  | none => simp only [reduceCtorEq]
  | some other => simp only [Reply.failed.injEq, Option.some.injEq]

theorem table_act (emulator : Emulator) (action : Machine → Step Failure) :
    (emulator.act action).emulator.table = emulator.table := rfl

/-- No call changes the table. -/
theorem table_perform (emulator : Emulator) (call : Call) :
    (emulator.perform call).emulator.table = emulator.table := by
  cases call with
  | reset =>
      rw [perform]
      exact table_act emulator _
  | _ => rfl

theorem table_after (emulator : Emulator) (calls : List Call) :
    (emulator.after calls).table = emulator.table := by
  apply after_preserves fun reached => reached.table = emulator.table
  · intro reached call _ same
    rw [table_perform, same]
  · rfl

/-! ### Cycles -/

/-- The emulator after a number of cycles, each of which may fail. -/
def afterCycles (emulator : Emulator) (count : Nat) : Emulator :=
  emulator.after (List.replicate count .cycle)

theorem afterCycles_succ (emulator : Emulator) (count : Nat) :
    emulator.afterCycles (count + 1) =
      ((emulator.afterCycles count).perform .cycle).emulator := by
  induction count generalizing emulator with
  | zero => rfl
  | succ count inductionHypothesis =>
      exact inductionHypothesis (emulator.perform .cycle).emulator

theorem table_afterCycles (emulator : Emulator) (count : Nat) :
    (emulator.afterCycles count).table = emulator.table :=
  table_after emulator _

theorem afterCycles_preserves (property : Emulator → Prop)
    (cycles : ∀ emulator, property emulator → property (emulator.perform .cycle).emulator)
    {emulator : Emulator} (holds : property emulator) (count : Nat) :
    property (emulator.afterCycles count) := by
  apply after_preserves property _ holds
  intro reached call member
  rw [List.eq_of_mem_replicate member]
  exact cycles reached

/-! ### Frames -/

theorem deliver_act (emulator : Emulator) (action : Machine → Step Failure) :
    (emulator.act action).emulator.deliver? = emulator.deliver? := by
  funext signal
  cases signal <;> rfl

theorem perform_frame_of_failure {emulator : Emulator} {failure : Failure}
    (failed : (emulator.machine.cycle emulator.table).failure = some failure) (count : Nat) :
    emulator.perform (.frame (count + 1)) = emulator.cycle := by
  simp only [perform, frame, cycle, act, Machine.frame_succ, Step.andThen, failed]

theorem perform_frame_of_success {emulator : Emulator}
    (success : (emulator.machine.cycle emulator.table).failure = none) (count : Nat) :
    let next := emulator.cycle.emulator.perform (.frame count)
    emulator.perform (.frame (count + 1)) =
      { next with outputs := emulator.cycle.outputs ++ next.outputs } := by
  intro next
  simp only [next, perform, frame]
  rw [act, Machine.frame_succ, Step.andThen, success]
  simp only [Step.after, List.filterMap_append]
  rw [← deliver_act emulator (Machine.cycle emulator.table)]
  rfl

/-- A frame is a number of cycles. -/
theorem exists_cycles_of_frame (emulator : Emulator) (count : Nat) :
    ∃ cycles ≤ count, (emulator.perform (.frame count)).emulator =
      emulator.after (List.replicate cycles .cycle) := by
  induction count generalizing emulator with
  | zero => exact ⟨0, Nat.le_refl 0, rfl⟩
  | succ count inductionHypothesis =>
      cases outcome : (emulator.machine.cycle emulator.table).failure with
      | some failure =>
          refine ⟨1, Nat.succ_le_succ (Nat.zero_le count), ?_⟩
          rw [perform_frame_of_failure outcome]
          rfl
      | none =>
          obtain ⟨cycles, bound, same⟩ := inductionHypothesis emulator.cycle.emulator
          refine ⟨cycles + 1, Nat.succ_le_succ bound, ?_⟩
          rw [perform_frame_of_success outcome]
          exact same

/-! ### Calls that do not let the machine run -/

theorem stack_perform {call : Call} (idle : call.runs = false) (kept : call ≠ .reset)
    (emulator : Emulator) :
    (emulator.perform call).emulator.machine.stack = emulator.machine.stack := by
  cases call with
  | reset => exact absurd rfl kept
  | load program => exact emulator.machine.view_load Machine.stack (fun _ _ _ => rfl) program
  | loadFrom source =>
      exact emulator.machine.view_loadFrom Machine.stack (fun _ _ _ => rfl) source
  | cycle => cases idle
  | frame count => cases idle
  | _ => rfl

theorem counter_perform_of_restarts {call : Call} (restarts : call.restarts = true)
    (emulator : Emulator) :
    (emulator.perform call).emulator.machine.counter = UInt16.ofNat programStart := by
  cases call with
  | reset => rfl
  | load program => exact Machine.counter_load_of_le (of_decide_eq_true restarts) emulator.machine
  | loadFrom source =>
      simp only [Call.restarts] at restarts
      simp only [perform, act, Machine.loadFrom]
      cases arrived : source.contents with
      | ok program =>
          rw [arrived] at restarts
          exact Machine.counter_load_of_le (of_decide_eq_true restarts) emulator.machine
      | error failure => rw [arrived] at restarts; cases restarts
  | _ => cases restarts

theorem counter_perform {call : Call} (idle : call.runs = false)
    (onward : call.restarts = false) (emulator : Emulator) :
    (emulator.perform call).emulator.machine.counter = emulator.machine.counter := by
  cases call with
  | reset => cases onward
  | load program =>
      have tooLarge := Nat.lt_of_not_le (of_decide_eq_false onward)
      exact congrArg Machine.counter (Machine.machine_load_of_lt tooLarge emulator.machine)
  | loadFrom source =>
      simp only [Call.restarts] at onward
      simp only [perform, act, Machine.loadFrom]
      cases arrived : source.contents with
      | ok program =>
          rw [arrived] at onward
          have tooLarge := Nat.lt_of_not_le (of_decide_eq_false onward)
          exact congrArg Machine.counter (Machine.machine_load_of_lt tooLarge emulator.machine)
      | error failure => rfl
  | cycle => cases idle
  | frame count => cases idle
  | _ => rfl

end Emulator

end Chip8
