import Chip8.Emulator.Moment
import Chip8.Proofs.Effect

/-!
Changes of the screen under the full table. Only a clearing or a drawing that succeeds changes the
screen, and each of them shows it once, as it then is. The observer of the screen therefore always
holds the screen as it is.
-/

namespace Chip8

def Instruction.paints : Instruction → Bool
  | .clearScreen => true
  | .draw _ _ _ => true
  | _ => false

def Machine.paints (machine : Machine) : Bool :=
  match machine.instruction with
  | .ok instruction => instruction.paints
  | .error _ => false

/-- Whether the moment is a cycle that succeeds in painting. -/
def Moment.paints (moment : Moment) : Bool := moment.completes && moment.before.machine.paints

/-! ### One cycle -/

private theorem Effect.panel_of_screens {reading : Option Instruction} {before : Machine}
    {step : Step Fault} (effect : Effect reading before step) (silent : step.screens = []) :
    step.machine.panel = before.panel := by
  cases effect with
  | shown registers panel => cases silent
  | _ => rfl

namespace Instruction

variable {instruction : Instruction} {machine : Machine}

private theorem screens_execute (success : (instruction.execute machine).failure = none) :
    (instruction.execute machine).screens =
      if instruction.paints then [(instruction.execute machine).machine.panel.screen] else [] := by
  rw [Step.screens, signals_execute]
  cases instruction with
  | draw x y height =>
      simp only [success]
      rfl
  | _ => rfl

/-- Painting marks the panel, whether or not a cell changes. -/
theorem changed_execute (paints : instruction.paints = true)
    (success : (instruction.execute machine).failure = none) :
    (instruction.execute machine).machine.panel.changed = true := by
  cases instruction with
  | clearScreen => rfl
  | draw x y height =>
      simp only [execute] at success ⊢
      cases block : machine.spanAtIndex height.val with
      | error fault =>
          rw [block] at success
          cases success
      | ok span => rfl
  | _ => cases paints

end Instruction

inductive Painting (machine : Machine) (step : Step Failure) : Prop
  | kept (idle : (step.failure.isNone && machine.paints) = false)
      (panel : step.machine.panel = machine.panel) (screens : step.screens = []) :
      Painting machine step
  | painted (busy : (step.failure.isNone && machine.paints) = true)
      (changed : step.machine.panel.changed = true)
      (screens : step.screens = [step.machine.panel.screen]) : Painting machine step

namespace Machine

theorem screens_tick (machine : Machine) (signals : List Signal) :
    (machine.tick.after signals).screens = signals.filterMap Signal.screen? := by
  have silent : machine.tick.signals.filterMap Signal.screen? = [] := by
    simp only [tick, Step.sending]
    split <;> rfl
  simp only [Step.screens, Step.after, List.filterMap_append, silent, List.append_nil]

private theorem painting_cycle (machine : Machine) :
    Painting machine (machine.cycle .standard) := by
  cases machine.course_cycle .standard with
  | unfetched fault _ outcome =>
      rw [outcome]
      exact .kept rfl rfl rfl
  | refused opcode fault _ _ outcome =>
      rw [outcome]
      exact .kept rfl rfl rfl
  | completed opcode done fetch carried success outcome =>
      have decoded := instruction_of_opcode fetch
      rw [RoutineTable.instruction?_standard] at carried
      have completes : (machine.cycle .standard).failure.isNone = true := by
        rw [outcome]
        rfl
      have screens : (machine.cycle .standard).screens = done.screens := by
        rw [outcome]
        exact done.machine.screens_tick _
      have panel : (machine.cycle .standard).machine.panel = done.machine.panel := by
        rw [outcome]
        rfl
      rw [Instruction.decode] at decoded
      cases reading : Instruction.ofOpcode? opcode with
      | none =>
          rw [reading] at carried decoded
          rw [← carried] at panel screens
          exact .kept (by rw [paints, decoded, Bool.and_false]) panel screens
      | some instruction =>
          rw [reading] at carried decoded
          rw [← carried] at success panel screens
          have shown := screens.trans (Instruction.screens_execute success)
          have busy : ((machine.cycle .standard).failure.isNone && machine.paints) =
              instruction.paints := by
            rw [completes, paints, decoded, Bool.true_and]
          cases painting : instruction.paints with
          | false =>
              rw [painting] at shown busy
              have effect := Effect.of_instruction instruction machine.skip
              have unpainted := effect.panel_of_screens (screens.symm.trans shown)
              exact .kept busy (panel.trans unpainted) shown
          | true =>
              rw [painting] at shown busy
              have changed := Instruction.changed_execute painting success
              refine .painted busy ((congrArg Panel.changed panel).trans changed) ?_
              rw [panel]
              exact shown

end Machine

/-! ### One moment -/

namespace Emulator

private theorem draws_act (emulator : Emulator) (action : Machine → Step Failure) :
    (emulator.act action).outputs.filter Output.draws =
      (action emulator.machine).screens.filterMap fun screen =>
        emulator.screenObserver.map fun observer => .drawn observer screen 64 32 :=
  emulator.filter_draws_deliver _

variable {call : Call} (idle : call.runs = false) (emulator : Emulator)

include idle

private theorem draws_perform : (emulator.perform call).outputs.filter Output.draws = [] := by
  apply List.filter_eq_nil_iff.mpr
  intro output member
  obtain ⟨notice, same⟩ := lines_perform idle emulator output member
  rw [same]
  exact Bool.false_ne_true

private theorem screen_perform (kept : call ≠ .reset) :
    (emulator.perform call).emulator.machine.panel.screen = emulator.machine.panel.screen := by
  cases call with
  | reset => exact absurd rfl kept
  | load program =>
      exact emulator.machine.view_load (fun machine => machine.panel.screen) (fun _ _ _ => rfl)
        program
  | loadFrom source =>
      exact emulator.machine.view_loadFrom (fun machine => machine.panel.screen)
        (fun _ _ _ => rfl) source
  | cycle => cases idle
  | frame count => cases idle
  | refresh present => exact emulator.machine.panel.screen_refresh present
  | _ => rfl

end Emulator

namespace Moment

def drawing? (moment : Moment) : Option Output :=
  moment.before.screenObserver.map fun observer =>
    .drawn observer moment.after.machine.panel.screen 64 32

private theorem screen_of_drawing {moment : Moment} {observer : String} {screen : Screen}
    {width height : Nat} (drawn : moment.drawing? = some (.drawn observer screen width height)) :
    moment.after.machine.panel.screen = screen := by
  obtain ⟨_, _, same⟩ := Option.map_eq_some_iff.mp drawn
  injection same

theorem paints_of_idle {moment : Moment} (idle : moment.call.runs = false) :
    moment.paints = false := by
  rw [paints, completes_of_idle idle, Bool.false_and]

variable {moment : Moment} (full : moment.before.table = .standard)

include full

theorem painting : Painting moment.before.machine
    (moment.before.machine.cycle moment.before.table) := by
  rw [full]
  exact moment.before.machine.painting_cycle

variable (single : moment.call.Single)

include single

/-- Painting shows the screen once, and nothing else shows it. -/
theorem draws_response :
    moment.response.outputs.filter Output.draws =
      if moment.paints then moment.drawing?.toList else [] := by
  rcases single.cycle_or_idle with cycles | idle
  · have sent := moment.before.draws_act (Machine.cycle moment.before.table)
    rw [response_of_cycle cycles, paints, completes_of_cycle cycles]
    refine sent.trans ?_
    cases painting full with
    | kept idle _ screens =>
        rw [idle, screens]
        rfl
    | painted busy _ screens =>
        rw [busy, screens, drawing?, machine_after_of_cycle cycles]
        cases moment.before.screenObserver <;> rfl
  · rw [paints_of_idle idle]
    exact moment.before.draws_perform idle

theorem screen_after (kept : moment.call ≠ .reset) (unpainted : moment.paints = false) :
    moment.after.machine.panel.screen = moment.before.machine.panel.screen := by
  rcases single.cycle_or_idle with cycles | idle
  · rw [paints, completes_of_cycle cycles] at unpainted
    rw [machine_after_of_cycle cycles]
    cases painting full with
    | kept _ panel _ => rw [panel]
    | painted busy _ _ => rw [busy] at unpainted; cases unpainted
  · exact moment.before.screen_perform idle kept

end Moment

/-! ### Runs -/

namespace Emulator

variable {start final : Emulator} {moments : List Moment}

private theorem Run.draws (run : Run start moments final) (full : start.table = .standard) :
    (moments.flatMap fun moment => moment.response.outputs).filter Output.draws =
      (moments.filter Moment.paints).filterMap Moment.drawing? := by
  rw [List.filter_flatMap, ← flatMap_toList]
  apply List.flatMap_congr
  intro moment member
  exact moment.draws_response ((run.table.1 moment member).trans full) (run.single moment member)

/-- Without a reset, the screen stays as the last painting left it. -/
theorem Run.screen (run : Run start moments final) (full : start.table = .standard)
    (kept : ∀ moment ∈ moments, moment.call ≠ .reset) :
    final.machine.panel.screen =
      match (moments.filter Moment.paints).getLast? with
      | none => start.machine.panel.screen
      | some moment => moment.after.machine.panel.screen := by
  induction run with
  | nil emulator => rfl
  | cons moment single later inductionHypothesis =>
      obtain ⟨here, onward⟩ := List.forall_mem_cons.mp kept
      rw [inductionHypothesis (moment.table_after.trans full) onward]
      cases painting : moment.paints with
      | false =>
          rw [List.filter_cons_of_neg (Bool.eq_false_iff.mp painting),
            moment.screen_after full single here painting]
      | true =>
          rw [List.filter_cons_of_pos painting, List.getLast?_cons]
          cases (List.filter Moment.paints _).getLast? <;> rfl

theorem screenObserver_act (emulator : Emulator) (action : Machine → Step Failure) :
    (emulator.act action).emulator.screenObserver = emulator.screenObserver := rfl

private theorem isSome_screenObserver_perform {emulator : Emulator} {call : Call}
    (watched : emulator.screenObserver.isSome = true) (installed : call ≠ .observeScreen none) :
    (emulator.perform call).emulator.screenObserver.isSome = true := by
  cases call with
  | observeScreen observer =>
      cases observer with
      | none => exact absurd rfl installed
      | some name => rfl
  | reset =>
      rw [perform, screenObserver_act]
      exact watched
  | _ => exact watched

private theorem Run.isSome_screenObserver (run : Run start moments final)
    (watched : start.screenObserver.isSome = true)
    (installed : ∀ moment ∈ moments, moment.call ≠ .observeScreen none) :
    ∀ moment ∈ moments, moment.before.screenObserver.isSome = true := by
  refine (run.invariant (fun reached => reached.screenObserver.isSome = true) ?_ watched).1
  intro moment member held
  exact isSome_screenObserver_perform held (installed moment member)

/-- With an observer in place, every painting is shown. -/
theorem Run.map_draws (run : Run start moments final) (full : start.table = .standard)
    (watched : ∀ moment ∈ moments, moment.before.screenObserver.isSome = true) :
    ((moments.flatMap fun moment => moment.response.outputs).filter Output.draws).map some =
      (moments.filter Moment.paints).map Moment.drawing? := by
  rw [run.draws full, List.map_filterMap_some_eq_filter_map_isSome, List.filter_eq_self]
  intro drawing member
  obtain ⟨moment, painted, same⟩ := List.mem_map.mp member
  rw [← same, Moment.drawing?, Option.isSome_map]
  exact watched moment (List.mem_of_mem_filter painted)

/-- While the screen is observed and nothing resets it, its observer is shown exactly what each
clearing and each drawing leaves on the screen. Nothing else changes a pixel, so the last screen
that was shown is the current one. -/
theorem observer_follows_screen {emulator : Emulator} {calls : List Call}
    (full : emulator.table = .standard) (watched : emulator.screenObserver.isSome = true)
    (kept : ∀ call ∈ calls, call ≠ .reset ∧ call ≠ .observeScreen none) :
    let moments := emulator.history calls
    let events := (emulator.outputs calls).filter Output.draws
    events.map some = (moments.filter Moment.paints).map Moment.drawing? ∧
      (∀ moment ∈ moments, moment.paints = false →
        moment.response.outputs.filter Output.draws = [] ∧
          moment.after.machine.panel.screen = moment.before.machine.panel.screen) ∧
      ∀ observer screen width height,
        events.getLast? = some (.drawn observer screen width height) →
          (emulator.after calls).machine.panel.screen = screen := by
  intro moments events
  have run : Run emulator moments (emulator.after calls) := emulator.run_history calls
  have keptMoments : ∀ moment ∈ moments,
      moment.call ≠ .reset ∧ moment.call ≠ .observeScreen none :=
    forall_mem_history (fun call => call ≠ .reset ∧ call ≠ .observeScreen none)
      (by simp only [ne_eq, reduceCtorEq, not_false_eq_true, and_self]) kept
  have shown : events.map some = (moments.filter Moment.paints).map Moment.drawing? := by
    unfold events
    rw [outputs_eq_flatMap]
    apply run.map_draws full
    exact run.isSome_screenObserver watched fun moment member => (keptMoments moment member).2
  refine ⟨shown, ?_, ?_⟩
  · intro moment member unpainted
    have standard : moment.before.table = .standard := (run.table.1 moment member).trans full
    have single := run.single moment member
    refine ⟨?_, moment.screen_after standard single (keptMoments moment member).1 unpainted⟩
    rw [moment.draws_response standard single, unpainted]
    rfl
  · intro observer screen width height last
    have lastDrawing := congrArg List.getLast? shown
    rw [List.getLast?_map, List.getLast?_map, last] at lastDrawing
    rw [run.screen full fun moment member => (keptMoments moment member).1]
    cases final : (moments.filter Moment.paints).getLast? with
    | none =>
        rw [final] at lastDrawing
        cases lastDrawing
    | some moment =>
        rw [final] at lastDrawing
        exact moment.screen_of_drawing (Option.some.inj lastDrawing).symm

theorem observer_follows_screen_clear_screen :
    let watched := { holding [0x00, 0xE0] with screenObserver := some "screen" }
    let calls : List Call := [.cycle]
    watched.table = .standard ∧ watched.screenObserver.isSome = true ∧
      (∀ call ∈ calls, call ≠ .reset ∧ call ≠ .observeScreen none) ∧
      (watched.outputs calls).filter Output.draws = [.drawn "screen" Screen.dark 64 32] ∧
      (watched.after calls).machine.panel.screen = Screen.dark := by
  intro watched calls
  have fetched : watched.machine.opcode = .ok (Opcode.ofBytes 0x00 0xE0) :=
    Machine.opcode_of_bytes (Memory.getElem?_overwrite_offset _ 0 (by decide) rfl)
      (Memory.getElem?_overwrite_offset _ 1 (by decide) rfl)
  have events : (watched.outputs calls).filter Output.draws =
      [.drawn "screen" Screen.dark 64 32] := by
    rw [outputs, perform, cycle, act, Machine.cycle, fetched]
    rfl
  have full : watched.table = .standard := rfl
  have kept : ∀ call ∈ calls, call ≠ .reset ∧ call ≠ .observeScreen none := by simp [calls]
  obtain ⟨_, _, current⟩ := observer_follows_screen full rfl kept
  exact ⟨full, rfl, kept, events, current "screen" Screen.dark 64 32 (by rw [events]; rfl)⟩

end Emulator

end Chip8
