import Chip8.Emulator.Delivery
import Mathlib.Data.List.DropRight

/-!
Histories moment by moment. A moment is a call that is carried out in one go; a frame is as many
moments as it runs cycles. Moments follow each other without a gap, so what each of them preserves
holds from the first to the last.
-/

namespace Chip8

theorem flatMap_toList {α β : Type} (marked : α → Bool) (result? : α → Option β)
    (items : List α) :
    (items.flatMap fun item => if marked item then (result? item).toList else []) =
      (items.filter marked).filterMap result? := by
  induction items with
  | nil => rfl
  | cons item rest inductionHypothesis =>
      rw [List.flatMap_cons, List.filter_cons, inductionHypothesis]
      cases marked item with
      | false => rfl
      | true =>
          simp only [if_true, List.filterMap_cons]
          cases result? item <;> rfl

/-- Whether a call is carried out in one go. -/
def Call.Single (call : Call) : Prop := ∀ count, call ≠ .frame count

theorem Call.single_or_frame (call : Call) : call.Single ∨ ∃ count, call = .frame count := by
  cases call with
  | frame count => exact .inr ⟨count, rfl⟩
  | _ => exact .inl (fun _ same => by cases same)

theorem Call.Single.cycle_or_idle {call : Call} (single : call.Single) :
    call = .cycle ∨ call.runs = false := by
  cases call with
  | cycle => exact .inl rfl
  | frame count => exact absurd rfl (single count)
  | _ => exact .inr rfl

/-- A call, and the emulator that it finds. -/
structure Moment where
  before : Emulator
  call : Call

namespace Moment

def response (moment : Moment) : Response := moment.before.perform moment.call

def after (moment : Moment) : Emulator := moment.response.emulator

def completes (moment : Moment) : Bool :=
  match moment.call with
  | .cycle => (moment.before.machine.cycle moment.before.table).failure.isNone
  | _ => false

variable {moment : Moment}

theorem table_after (moment : Moment) : moment.after.table = moment.before.table :=
  Emulator.table_perform moment.before moment.call

theorem response_of_cycle (cycles : moment.call = .cycle) :
    moment.response = moment.before.cycle := by
  rw [response, cycles]
  rfl

theorem machine_after_of_cycle (cycles : moment.call = .cycle) :
    moment.after.machine = (moment.before.machine.cycle moment.before.table).machine := by
  rw [after, response_of_cycle cycles]
  rfl

theorem completes_of_cycle (cycles : moment.call = .cycle) :
    moment.completes = (moment.before.machine.cycle moment.before.table).failure.isNone := by
  rw [completes, cycles]

theorem completes_of_idle (idle : moment.call.runs = false) : moment.completes = false := by
  cases moment with
  | mk before call =>
      cases call with
      | cycle => cases idle
      | _ => rfl

end Moment

namespace Emulator

def outputs (emulator : Emulator) : List Call → List Output
  | [] => []
  | call :: rest =>
      (emulator.perform call).outputs ++ (emulator.perform call).emulator.outputs rest

/-- The cycles that a frame runs, up to the first that fails. -/
def frameMoments (emulator : Emulator) : Nat → List Moment
  | 0 => []
  | count + 1 =>
      { before := emulator, call := .cycle } ::
        match (emulator.machine.cycle emulator.table).failure with
        | none => emulator.cycle.emulator.frameMoments count
        | some _ => []

def callMoments (emulator : Emulator) : Call → List Moment
  | .frame count => emulator.frameMoments count
  | call => [{ before := emulator, call := call }]

def history (emulator : Emulator) : List Call → List Moment
  | [] => []
  | call :: rest => emulator.callMoments call ++ (emulator.perform call).emulator.history rest

theorem callMoments_of_single {call : Call} (single : call.Single) (emulator : Emulator) :
    emulator.callMoments call = [{ before := emulator, call := call }] := by
  cases call with
  | frame count => exact absurd rfl (single count)
  | _ => rfl

/-! ### Frames -/

theorem outputs_frame (emulator : Emulator) (count : Nat) :
    (emulator.perform (.frame count)).outputs =
      (emulator.frameMoments count).flatMap fun moment => moment.response.outputs := by
  induction count generalizing emulator with
  | zero => rfl
  | succ count inductionHypothesis =>
      rw [frameMoments, List.flatMap_cons]
      cases outcome : (emulator.machine.cycle emulator.table).failure with
      | some failure =>
          rw [perform_frame_of_failure outcome, List.flatMap_nil, List.append_nil]
          rfl
      | none =>
          rw [perform_frame_of_success outcome, inductionHypothesis]
          rfl

theorem outputs_eq_flatMap (emulator : Emulator) (calls : List Call) :
    emulator.outputs calls =
      (emulator.history calls).flatMap fun moment => moment.response.outputs := by
  induction calls generalizing emulator with
  | nil => rfl
  | cons call rest inductionHypothesis =>
      rw [outputs, history, List.flatMap_append, inductionHypothesis]
      congr 1
      cases call with
      | frame count => exact emulator.outputs_frame count
      | _ => exact (List.append_nil _).symm

/-! ### Runs -/

inductive Run : Emulator → List Moment → Emulator → Prop
  | nil (emulator : Emulator) : Run emulator [] emulator
  | cons (moment : Moment) {rest : List Moment} {final : Emulator}
      (single : moment.call.Single) (later : Run moment.after rest final) :
      Run moment.before (moment :: rest) final

namespace Run

variable {start between final : Emulator} {moments others : List Moment}

theorem trans (first : Run start moments between) (second : Run between others final) :
    Run start (moments ++ others) final := by
  induction first with
  | nil emulator => exact second
  | cons moment single later inductionHypothesis =>
      exact .cons moment single (inductionHypothesis second)

theorem split (run : Run start (moments ++ others) final) :
    ∃ between, Run start moments between ∧ Run between others final := by
  induction moments generalizing start with
  | nil => exact ⟨start, .nil start, run⟩
  | cons moment rest inductionHypothesis =>
      cases run with
      | cons _ single later =>
          obtain ⟨between, first, second⟩ := inductionHypothesis later
          exact ⟨between, .cons moment single first, second⟩

theorem final_eq (run : Run start moments final) :
    final = (moments.getLast?.map Moment.after).getD start := by
  induction run with
  | nil emulator => rfl
  | cons moment single later inductionHypothesis =>
      rw [List.getLast?_cons, inductionHypothesis]
      cases (List.getLast? _) <;> rfl

theorem single (run : Run start moments final) :
    ∀ moment ∈ moments, moment.call.Single := by
  induction run with
  | nil emulator => exact List.forall_mem_nil _
  | cons moment single later inductionHypothesis =>
      exact List.forall_mem_cons.mpr ⟨single, inductionHypothesis⟩

/-- What every moment preserves holds in front of every moment and at the end. -/
theorem invariant (property : Emulator → Prop) (run : Run start moments final)
    (step : ∀ moment ∈ moments, property moment.before → property moment.after)
    (holds : property start) :
    (∀ moment ∈ moments, property moment.before) ∧ property final := by
  induction run with
  | nil emulator => exact ⟨List.forall_mem_nil _, holds⟩
  | cons moment single later inductionHypothesis =>
      obtain ⟨here, onward⟩ := List.forall_mem_cons.mp step
      obtain ⟨between, last⟩ := inductionHypothesis onward (here holds)
      exact ⟨List.forall_mem_cons.mpr ⟨holds, between⟩, last⟩

theorem table (run : Run start moments final) :
    (∀ moment ∈ moments, moment.before.table = start.table) ∧ final.table = start.table := by
  apply run.invariant fun emulator => emulator.table = start.table
  · intro moment _ same
    exact moment.table_after.trans same
  · rfl

end Run

/-- The emulator right after the last marked moment, for which the start counts as well. -/
def lastMarked (start : Emulator) (marked : Moment → Bool) (moments : List Moment) : Emulator :=
  ((moments.rdropWhile fun moment => !marked moment).getLast?.map Moment.after).getD start

theorem lastMarked_eq (start : Emulator) (marked : Moment → Bool) (moments : List Moment) :
    start.lastMarked marked moments = start ∨
      ∃ moment ∈ moments, marked moment = true ∧
        start.lastMarked marked moments = moment.after := by
  rw [lastMarked]
  cases last : (moments.rdropWhile fun moment => !marked moment).getLast? with
  | none => exact .inl rfl
  | some moment =>
      have member := List.mem_of_getLast? last
      have nonempty := List.ne_nil_of_mem member
      have stopped := List.rdropWhile_last_not _ _ nonempty
      rw [List.getLast?_eq_some_getLast nonempty] at last
      rw [Option.some.inj last, Bool.not_eq_true, Bool.not_eq_false'] at stopped
      exact .inr ⟨moment, (List.rdropWhile_prefix _ moments).subset member, stopped, rfl⟩

theorem Run.sinceMarked {start final : Emulator} {moments : List Moment}
    (run : Run start moments final) (marked : Moment → Bool) :
    Run (start.lastMarked marked moments) (moments.rtakeWhile fun moment => !marked moment)
      final := by
  have whole : (moments.rdropWhile fun moment => !marked moment) ++
      (moments.rtakeWhile fun moment => !marked moment) = moments :=
    List.rdropWhile_append_rtakeWhile
  rw [← whole] at run
  obtain ⟨between, first, second⟩ := run.split
  have same : between = start.lastMarked marked moments := first.final_eq
  rw [same] at second
  exact second

theorem run_frame (emulator : Emulator) (count : Nat) :
    Run emulator (emulator.frameMoments count) (emulator.perform (.frame count)).emulator := by
  induction count generalizing emulator with
  | zero => exact .nil emulator
  | succ count inductionHypothesis =>
      have single : Call.cycle.Single := fun _ same => by cases same
      rw [frameMoments]
      cases outcome : (emulator.machine.cycle emulator.table).failure with
      | some failure =>
          rw [perform_frame_of_failure outcome]
          exact .cons { before := emulator, call := .cycle } single (.nil _)
      | none =>
          rw [perform_frame_of_success outcome]
          exact .cons { before := emulator, call := .cycle } single (inductionHypothesis _)

theorem run_history (emulator : Emulator) (calls : List Call) :
    Run emulator (emulator.history calls) (emulator.after calls) := by
  induction calls generalizing emulator with
  | nil => exact .nil emulator
  | cons call rest inductionHypothesis =>
      refine Run.trans ?_ (inductionHypothesis _)
      rcases call.single_or_frame with single | ⟨count, same⟩
      · rw [callMoments_of_single single]
        exact .cons { before := emulator, call := call } single (.nil _)
      · rw [same]
        exact emulator.run_frame count

theorem call_of_mem_frameMoments {emulator : Emulator} {count : Nat} {moment : Moment}
    (member : moment ∈ emulator.frameMoments count) : moment.call = .cycle := by
  induction count generalizing emulator with
  | zero => cases member
  | succ count inductionHypothesis =>
      rw [frameMoments] at member
      rcases List.mem_cons.mp member with first | later
      · rw [first]
      · split at later
        · exact inductionHypothesis later
        · cases later

theorem call_of_mem_history {emulator : Emulator} {calls : List Call} {moment : Moment}
    (member : moment ∈ emulator.history calls) : moment.call ∈ calls ∨ moment.call = .cycle := by
  induction calls generalizing emulator with
  | nil => cases member
  | cons call rest inductionHypothesis =>
      rcases List.mem_append.mp member with here | later
      · rcases call.single_or_frame with single | ⟨count, same⟩
        · rw [callMoments_of_single single, List.mem_singleton] at here
          rw [here]
          exact .inl List.mem_cons_self
        · rw [same] at here
          exact .inr (call_of_mem_frameMoments here)
      · exact (inductionHypothesis later).imp (List.mem_cons_of_mem call) id

/-- What is true of all calls and of cycles is true of all moments. -/
theorem forall_mem_history {emulator : Emulator} {calls : List Call} (property : Call → Prop)
    (cycles : property .cycle) (holds : ∀ call ∈ calls, property call) :
    ∀ moment ∈ emulator.history calls, property moment.call := by
  intro moment member
  rcases call_of_mem_history member with among | running
  · exact holds moment.call among
  · rw [running]
    exact cycles

end Emulator

end Chip8
