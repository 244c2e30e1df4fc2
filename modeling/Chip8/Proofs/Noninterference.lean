import Chip8.Emulator.Moment
import Chip8.Proofs.Dependence

/-!
Nothing comes back from an observer. Two emulators that differ only in what observers see, in the
observers and in the verbosity go through the same states and fail alike, and their logs differ
only in which lines they keep.
-/

namespace Chip8

/-! ### One instruction -/

/-- The same state, except for the sound timer and the mark on the panel. -/
structure Machine.Alike (one other : Machine) : Prop where
  memory : one.memory = other.memory
  registers : one.registers = other.registers
  index : one.index = other.index
  counter : one.counter = other.counter
  screen : one.panel.screen = other.panel.screen
  delay : one.delay = other.delay
  stack : one.stack = other.stack
  keypad : one.keypad = other.keypad
  entropy : one.entropy = other.entropy

/-- Outcomes that only observers of the screen and of the buzzer can tell apart. -/
structure Step.Alike {ε : Type} (one other : Step ε) : Prop where
  machine : one.machine.Alike other.machine
  notices : one.notices = other.notices
  failure : one.failure = other.failure

namespace Machine

def dress (machine : Machine) (changed : Bool) (sound : Countdown) : Machine :=
  { machine with
    panel := { machine.panel with changed := changed }
    sound := sound }

theorem alike_dress (machine : Machine) (changed : Bool) (sound : Countdown) :
    machine.Alike (machine.dress changed sound) :=
  ⟨rfl, rfl, rfl, rfl, rfl, rfl, rfl, rfl, rfl⟩

namespace Alike

variable {one other third : Machine}

theorem refl (machine : Machine) : machine.Alike machine :=
  ⟨rfl, rfl, rfl, rfl, rfl, rfl, rfl, rfl, rfl⟩

theorem eq_dress (alike : one.Alike other) : other = one.dress other.panel.changed other.sound :=
  Machine.ext alike.memory.symm alike.registers.symm alike.index.symm alike.counter.symm
    (Panel.ext alike.screen.symm rfl) alike.delay.symm rfl alike.stack.symm alike.keypad.symm
    alike.entropy.symm

theorem symm (alike : one.Alike other) : other.Alike one := by
  rw [alike.eq_dress]
  exact ⟨rfl, rfl, rfl, rfl, rfl, rfl, rfl, rfl, rfl⟩

theorem trans (first : one.Alike other) (second : other.Alike third) : one.Alike third := by
  rw [second.eq_dress, first.eq_dress]
  exact one.alike_dress _ _

theorem skip (alike : one.Alike other) : one.skip.Alike other.skip :=
  { alike with counter := congrArg (· + 2) alike.counter }

end Alike

end Machine

namespace Step.Alike

variable {ε δ : Type} {one other : Machine}

theorem quiet (alike : one.Alike other) : (Step.quiet one : Step ε).Alike (.quiet other) :=
  ⟨alike, rfl, rfl⟩

theorem sending (alike : one.Alike other) (signals : List Signal) :
    (Step.sending one signals : Step ε).Alike (.sending other signals) :=
  ⟨alike, rfl, rfl⟩

theorem failing (alike : one.Alike other) (failure : ε) :
    (Step.failing one failure).Alike (.failing other failure) :=
  ⟨alike, rfl, rfl⟩

end Step.Alike

/-- Whether a part reaches further than to what observers see. -/
def Part.Matters (part : Part) : Prop := part ≠ .mark ∧ part ≠ .sound

theorem Instruction.Reads.matters {instruction : Instruction} {part : Part}
    (reads : instruction.Reads part) : part.Matters := by
  cases reads <;> exact ⟨nofun, nofun⟩

theorem Machine.Coincides.alike {one other : Machine}
    (coincides : one.Coincides Part.Matters other) : one.Alike other := by
  have bytes (address : Nat) : (Part.byte address).Matters := ⟨nofun, nofun⟩
  exact
    { memory := coincides.memory_eq bytes
      registers := coincides.registers
      index := coincides.index
      counter := coincides.counter
      screen := coincides.screen
      delay := coincides.delay ⟨nofun, nofun⟩
      stack := coincides.stack ⟨nofun, nofun⟩
      keypad := coincides.keypad ⟨nofun, nofun⟩
      entropy := coincides.entropy }

/-- No instruction reads the mark on the panel or the sound timer. -/
theorem Instruction.alike_execute (instruction : Instruction) (machine : Machine)
    (changed : Bool) (sound : Countdown) :
    (instruction.execute machine).Alike (instruction.execute (machine.dress changed sound)) := by
  have coincides : machine.Coincides Part.Matters
      (machine.refit (machine.dress changed sound)) :=
    { Machine.Coincides.refl Part.Matters machine with
      mark := fun matters => absurd rfl matters.1
      sound := fun matters => absurd rfl matters.2 }
  have steps := instruction.coincides_execute coincides fun _ read => (reads_of_mem read).matters
  exact ⟨steps.machine.alike, congrArg (List.filterMap Signal.notice?) steps.signals,
    steps.failure⟩

/-! ### Cycles and frames -/

namespace Step.Alike

variable {ε δ : Type}

theorem mapFailure {one other : Step ε} (alike : one.Alike other) (rename : ε → δ) :
    (one.mapFailure rename).Alike (other.mapFailure rename) :=
  ⟨alike.machine, alike.notices, congrArg (Option.map rename) alike.failure⟩

theorem after {one other : Step ε} (alike : one.Alike other) (signals : List Signal) :
    (one.after signals).Alike (other.after signals) := by
  refine ⟨alike.machine, ?_, alike.failure⟩
  simp only [Step.notices, Step.after, List.filterMap_append]
  exact congrArg _ alike.notices

theorem andThen {one other : Step ε} (alike : one.Alike other) {next : Machine → Step ε}
    (onward : ∀ {first second : Machine}, first.Alike second →
      (next first).Alike (next second)) :
    (one.andThen next).Alike (other.andThen next) := by
  have later := onward alike.machine
  simp only [Step.andThen, ← alike.failure]
  cases one.failure with
  | some failure => exact alike
  | none =>
      refine ⟨later.machine, ?_, later.failure⟩
      simp only [Step.notices, Step.after, List.filterMap_append]
      exact congrArg₂ (· ++ ·) alike.notices later.notices

end Step.Alike

theorem Machine.notices_tick (machine : Machine) : machine.tick.notices = [] := by
  simp only [Step.notices, tick, Step.sending]
  split <;> rfl

namespace Machine.Alike

variable {one other : Machine}

theorem obey (alike : one.Alike other) (opcode : Opcode) (reading : Option Instruction) :
    (one.obey opcode reading).Alike (other.obey opcode reading) := by
  cases reading with
  | none => exact .sending alike _
  | some instruction =>
      rw [alike.eq_dress]
      exact instruction.alike_execute one _ _

theorem tick (alike : one.Alike other) : one.tick.Alike other.tick := by
  refine ⟨?_, one.notices_tick.trans other.notices_tick.symm, rfl⟩
  exact { alike with delay := congrArg (fun timer => timer.tick.1) alike.delay }

/-- Cycles fail alike, lead to machines that are alike, and report the same. -/
theorem cycle (alike : one.Alike other) (table : RoutineTable) :
    (one.cycle table).Alike (other.cycle table) := by
  have fetch : one.opcode = other.opcode := by
    rw [Machine.opcode, Machine.opcode, alike.memory, alike.counter]
  rw [Machine.cycle, Machine.cycle, fetch]
  cases other.opcode with
  | error fault => exact .failing alike _
  | ok opcode =>
      have carried := alike.skip.obey opcode (table.instruction? opcode)
      rw [← RoutineTable.dispatch_eq, ← RoutineTable.dispatch_eq] at carried
      simp only [Machine.execute, alike.counter]
      exact ((carried.mapFailure _).after _).andThen Alike.tick

theorem frame (alike : one.Alike other) (table : RoutineTable) (count : Nat) :
    (one.frame table count).Alike (other.frame table count) := by
  induction count generalizing one other with
  | zero => exact .quiet alike
  | succ count inductionHypothesis =>
      rw [Machine.frame_succ, Machine.frame_succ]
      exact (alike.cycle table).andThen inductionHypothesis

theorem load (alike : one.Alike other) (program : List UInt8) :
    (one.load program).Alike (other.load program) := by
  unfold Machine.load
  split
  · exact .failing alike _
  · refine .sending ?_ _
    have memory := congrArg (Memory.overwrite · programStart program) alike.memory
    exact { alike with memory := memory, counter := rfl }

theorem loadFrom (alike : one.Alike other) (source : Source) :
    (one.loadFrom source).Alike (other.loadFrom source) := by
  unfold Machine.loadFrom
  split
  · exact alike.load _
  · exact .failing alike _

end Machine.Alike

/-! ### Calls -/

def Call.matters : Call → Bool
  | .setSound _ => false
  | .refresh _ => false
  | .acknowledge => false
  | .observeScreen _ => false
  | .observeBuzzer _ => false
  | _ => true

def Reply.texts? : Reply → Option (List String)
  | .done => none
  | .failed failure => some (failure.message :: failure.causes)
  | .refreshed (.refused _ reason) => some [reason]
  | .refreshed _ => none

def Response.log (response : Response) : List Notice :=
  response.outputs.filterMap Output.notice?

/-- The same machine, as far as observers leave it alone, under the same table. -/
structure Emulator.Alike (one other : Emulator) : Prop where
  machine : one.machine.Alike other.machine
  table : one.table = other.table

/-- Responses that agree, with logs of the same notices. -/
structure Response.Alike (one other : Response) : Prop where
  emulator : one.emulator.Alike other.emulator
  reply : one.reply = other.reply
  log : ∃ notices : List Notice,
    one.log = notices.filter (fun notice => one.emulator.verbosity.keeps notice.level) ∧
      other.log = notices.filter (fun notice => other.emulator.verbosity.keeps notice.level)

theorem Verbosity.keeps_trace (level : Level) : Verbosity.keeps (some .trace) level = true := by
  cases level <;> rfl

namespace Emulator

def log (emulator : Emulator) (calls : List Call) : List Notice :=
  (emulator.outputs calls).filterMap Output.notice?

theorem log_act (emulator : Emulator) (action : Machine → Step Failure) :
    (emulator.act action).log =
      (action emulator.machine).notices.filter fun notice =>
        emulator.verbosity.keeps notice.level :=
  emulator.filterMap_notice_deliver _

private theorem verbosity_act (emulator : Emulator) (action : Machine → Step Failure) :
    (emulator.act action).emulator.verbosity = emulator.verbosity := rfl

theorem verbosity_perform (emulator : Emulator) (call : Call) :
    (emulator.perform call).emulator.verbosity = emulator.verbosity := by
  cases call with
  | reset =>
      rw [perform]
      exact verbosity_act emulator _
  | _ => rfl

theorem verbosity_after (emulator : Emulator) (calls : List Call) :
    (emulator.after calls).verbosity = emulator.verbosity := by
  apply after_preserves fun reached => reached.verbosity = emulator.verbosity
  · intro reached call _ same
    rw [verbosity_perform, same]
  · rfl

namespace Alike

variable {one other : Emulator}

theorem act (alike : one.Alike other) {action otherAction : Machine → Step Failure}
    (steps : (action one.machine).Alike (otherAction other.machine)) :
    (one.act action).Alike (other.act otherAction) := by
  refine ⟨⟨steps.machine, alike.table⟩, ?_, ?_⟩
  · simp only [Emulator.act, steps.failure]
  · refine ⟨(action one.machine).notices, one.log_act action, ?_⟩
    rw [steps.notices]
    exact other.log_act otherAction

theorem modify (alike : one.Alike other) {change : Machine → Machine}
    (same : (change one.machine).Alike (change other.machine)) :
    (one.modify change).Alike (other.modify change) :=
  ⟨⟨same, alike.table⟩, rfl, [], rfl, rfl⟩

theorem perform (alike : one.Alike other) {call : Call} (matters : call.matters = true) :
    (one.perform call).Alike (other.perform call) := by
  have machine := alike.machine
  cases call with
  | reset =>
      have same : one.machine.reset = other.machine.reset :=
        congrArg Machine.initial machine.entropy
      rw [Emulator.perform, Emulator.perform]
      refine alike.act (.sending ?_ _)
      rw [same]
      exact .refl _
  | load program => exact alike.act (machine.load program)
  | loadFrom source => exact alike.act (machine.loadFrom source)
  | cycle =>
      simp only [Emulator.perform, Emulator.cycle, alike.table]
      exact alike.act (machine.cycle other.table)
  | frame count =>
      simp only [Emulator.perform, Emulator.frame, alike.table]
      exact alike.act (machine.frame other.table count)
  | setKey index down =>
      have keypad := congrArg (Keypad.setIndex · index down) machine.keypad
      simp only [Emulator.perform]
      refine alike.modify ?_
      exact { machine with keypad := keypad }
  | setRegister index value =>
      have registers := congrArg (Vector.set · (Register.ofIndex index) value) machine.registers
      simp only [Emulator.perform]
      refine alike.modify ?_
      exact { machine with registers := registers }
  | setIndex value =>
      simp only [Emulator.perform]
      refine alike.modify ?_
      exact { machine with index := rfl }
  | setDelay value =>
      simp only [Emulator.perform]
      refine alike.modify ?_
      exact { machine with delay := rfl }
  | overwrite start bytes =>
      have memory := congrArg (Memory.overwrite · start bytes) machine.memory
      simp only [Emulator.perform]
      refine alike.modify ?_
      exact { machine with memory := memory }
  | _ => cases matters

/-- A call that does not matter leads to an emulator that is alike, and logs nothing. -/
theorem of_not_matters {call : Call} (idle : call.matters = false) (emulator : Emulator) :
    emulator.Alike (emulator.perform call).emulator ∧ (emulator.perform call).log = [] := by
  have machine := Machine.Alike.refl emulator.machine
  cases call with
  | setSound value => exact ⟨⟨{ machine with }, rfl⟩, rfl⟩
  | refresh present =>
      have screen := (emulator.machine.panel.screen_refresh present).symm
      exact ⟨⟨{ machine with screen := screen }, rfl⟩, rfl⟩
  | acknowledge => exact ⟨⟨{ machine with }, rfl⟩, rfl⟩
  | observeScreen observer => exact ⟨⟨machine, rfl⟩, rfl⟩
  | observeBuzzer observer => exact ⟨⟨machine, rfl⟩, rfl⟩
  | _ => cases idle

theorem symm (alike : one.Alike other) : other.Alike one :=
  ⟨alike.machine.symm, alike.table.symm⟩

theorem trans {third : Emulator} (first : one.Alike other) (second : other.Alike third) :
    one.Alike third :=
  ⟨first.machine.trans second.machine, first.table.trans second.table⟩

end Alike

/-- A refresh fails exactly where the panel has changed and the display refuses its screen. -/
theorem texts_refresh (emulator : Emulator) (present : Screen → Except String Unit) :
    (emulator.perform (.refresh present)).reply.texts? =
      match emulator.machine.panel.changed, present emulator.machine.panel.screen with
      | true, .error reason => some [reason]
      | _, _ => none := by
  simp only [perform, refresh]
  cases changed : emulator.machine.panel.changed with
  | false =>
      rw [Panel.refresh_of_unchanged changed]
      rfl
  | true =>
      cases answer : present emulator.machine.panel.screen with
      | error reason =>
          rw [Panel.refresh_of_error changed answer]
          rfl
      | ok accepted =>
          rw [Panel.refresh_of_ok changed answer]
          rfl

theorem Alike.texts_perform {one other : Emulator} (alike : one.Alike other) {call : Call}
    (agreed : ∀ present, call = .refresh present →
      one.machine.panel.changed = other.machine.panel.changed ∨
        present one.machine.panel.screen = .ok ()) :
    (one.perform call).reply.texts? = (other.perform call).reply.texts? := by
  cases matters : call.matters with
  | true => exact congrArg Reply.texts? (alike.perform matters).reply
  | false =>
      cases call with
      | refresh present =>
          rw [texts_refresh, texts_refresh, ← alike.machine.screen]
          rcases agreed present rfl with marks | accepted
          · rw [marks]
          · rw [accepted]
            cases one.machine.panel.changed <;> cases other.machine.panel.changed <;> rfl
      | setSound value => rfl
      | acknowledge => rfl
      | observeScreen observer => rfl
      | observeBuzzer observer => rfl
      | _ => cases matters

/-! ### Histories -/

/-- A history leads where its calls that matter lead, and its log is what the verbosity keeps of
their trace. -/
theorem Alike.after {one other : Emulator} (alike : one.Alike other)
    (tracing : other.verbosity = some .trace) (calls : List Call) :
    (one.after calls).Alike (other.after (calls.filter Call.matters)) ∧
      one.log calls =
        (other.log (calls.filter Call.matters)).filter fun notice =>
          one.verbosity.keeps notice.level := by
  induction calls generalizing one other with
  | nil => exact ⟨alike, rfl⟩
  | cons call rest inductionHypothesis =>
      have split (emulator : Emulator) (call : Call) (rest : List Call) :
          emulator.log (call :: rest) =
            (emulator.perform call).log ++ (emulator.perform call).emulator.log rest :=
        List.filterMap_append
      cases matters : call.matters with
      | true =>
          have responses := alike.perform matters
          obtain ⟨notices, log, otherLog⟩ := responses.log
          rw [verbosity_perform] at log otherLog
          obtain ⟨reached, later⟩ :=
            inductionHypothesis responses.emulator ((verbosity_perform other call).trans tracing)
          rw [verbosity_perform] at later
          rw [List.filter_cons_of_pos matters]
          refine ⟨reached, ?_⟩
          rw [tracing, List.filter_eq_self.mpr fun notice _ => Verbosity.keeps_trace notice.level]
            at otherLog
          rw [split, split, List.filter_append, log, otherLog, later]
      | false =>
          obtain ⟨idle, silent⟩ := Alike.of_not_matters matters one
          obtain ⟨reached, later⟩ := inductionHypothesis (idle.symm.trans alike) tracing
          rw [verbosity_perform] at later
          rw [List.filter_cons_of_neg (Bool.eq_false_iff.mp matters)]
          refine ⟨reached, ?_⟩
          rw [split, silent, List.nil_append, later]

/-- Two histories of emulators that are alike, with the same calls that matter, lead to emulators
that are alike. Every call fails there with the same texts, except where a display refuses a
screen of which one panel alone says that it changed. Every log is what its verbosity keeps of the
trace. -/
theorem observers_do_not_interfere {one other : Emulator} (alike : one.Alike other)
    {calls others : List Call}
    (same : calls.filter Call.matters = others.filter Call.matters) :
    let reached := one.after calls
    let counterpart := other.after others
    reached.Alike counterpart ∧
      (∀ call,
        (∀ present, call = .refresh present →
          reached.machine.panel.changed = counterpart.machine.panel.changed ∨
            present reached.machine.panel.screen = .ok ()) →
        (reached.perform call).reply.texts? = (counterpart.perform call).reply.texts?) ∧
      (one.verbosity = some .trace →
        other.log others =
          (one.log calls).filter fun notice => other.verbosity.keeps notice.level) := by
  intro reached counterpart
  -- Both histories are compared with the calls that matter alone, traced from the first emulator.
  let traced : Emulator := { one with verbosity := some .trace }
  have tracedAlike : one.Alike traced := ⟨.refl one.machine, rfl⟩
  obtain ⟨first, firstLog⟩ := tracedAlike.after rfl calls
  obtain ⟨second, secondLog⟩ := (alike.symm.trans tracedAlike).after rfl others
  rw [← same] at second secondLog
  have joined : reached.Alike counterpart := first.trans second.symm
  refine ⟨joined, fun call agreed => joined.texts_perform agreed, ?_⟩
  intro tracing
  rw [tracing, List.filter_eq_self.mpr fun notice _ => Verbosity.keeps_trace notice.level]
    at firstLog
  rw [secondLog, firstLog]

theorem observers_do_not_interfere_clear_screen :
    let plain := holding [0x00, 0xE0]
    let watched : Emulator :=
      { plain with
        machine := plain.machine.dress true { value := 1 }
        screenObserver := some "screen"
        buzzerObserver := some "buzzer"
        verbosity := some .trace }
    let calls : List Call := [.setSound 3, .cycle]
    let others : List Call := [.cycle, .acknowledge]
    watched.Alike plain ∧ calls.filter Call.matters = others.filter Call.matters ∧
      (watched.after calls).Alike (plain.after others) ∧
      watched.verbosity = some .trace ∧
      plain.log others =
        (watched.log calls).filter fun notice => plain.verbosity.keeps notice.level := by
  intro plain watched calls others
  have alike : watched.Alike plain := ⟨(plain.machine.alike_dress _ _).symm, rfl⟩
  have same : calls.filter Call.matters = others.filter Call.matters := rfl
  obtain ⟨reached, _, log⟩ := observers_do_not_interfere alike same
  exact ⟨alike, same, reached, rfl, log rfl⟩

/-- The answer to a refresh tells whether the panel has changed. -/
theorem refresh_tells_change :
    let shown := holding []
    let changed : Emulator := { shown with machine := shown.machine.dress true shown.machine.sound }
    let refusal : Call := .refresh fun _ => .error "refused"
    shown.Alike changed ∧ (shown.perform refusal).reply.texts? = none ∧
      (changed.perform refusal).reply.texts? = some ["refused"] :=
  ⟨⟨Machine.alike_dress _ _ _, rfl⟩, rfl, rfl⟩

end Emulator

end Chip8
