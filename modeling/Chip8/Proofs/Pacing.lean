import Chip8.Proofs.Noninterference
import Chip8.Proofs.View
import Chip8.Runner.Tally

/-!
Frames are made of cycles, and only their number matters. A frame is the same as its parts one after
the other, and a run that takes its cycles in frames of another length sees the same. The mark on
the panel, which a run takes away after every frame, makes no difference, for no instruction reads
it.
-/

namespace Chip8

/-! ### Frames one after the other -/

def Response.andThen (response : Response) (next : Emulator → Response) : Response :=
  match response.reply.failure? with
  | some _ => response
  | none =>
      let onward := next response.emulator
      { onward with outputs := response.outputs ++ onward.outputs }

namespace Emulator

private theorem act_andThen (emulator : Emulator) (first second : Machine → Step Failure) :
    (emulator.act fun machine => (first machine).andThen second) =
      (emulator.act first).andThen fun reached => reached.act second := by
  rw [Response.andThen, failure?_act]
  cases outcome : (first emulator.machine).failure with
  | some failure => simp only [act, Step.andThen, outcome]
  | none =>
      rw [act, Step.andThen, outcome]
      simp only [Step.after, List.filterMap_append]
      rw [← deliver_act emulator first]
      rfl

theorem frame_add (emulator : Emulator) (first second : Nat) :
    emulator.perform (.frame (first + second)) =
      (emulator.perform (.frame first)).andThen fun reached =>
        reached.perform (.frame second) := by
  simp only [perform, frame, Machine.frame_add]
  exact emulator.act_andThen _ _

def cycleAfter (emulator : Emulator) (count : Nat) : Response :=
  (emulator.after (List.replicate count .cycle)).perform .cycle

/-- How a frame goes: either all of its cycles succeed, or the first that fails is the last. -/
inductive Paced (emulator : Emulator) (count : Nat) : Response → Prop
  | finished (succeeded : ∀ earlier < count, (emulator.cycleAfter earlier).reply = .done) :
      Paced emulator count
        { emulator := emulator.after (List.replicate count .cycle)
          outputs := emulator.outputs (List.replicate count .cycle)
          reply := .done }
  | cut (last : Nat) (failure : Failure) (within : last < count)
      (succeeded : ∀ earlier < last, (emulator.cycleAfter earlier).reply = .done)
      (failed : (emulator.cycleAfter last).reply = .failed failure) :
      Paced emulator count
        { emulator := emulator.after (List.replicate (last + 1) .cycle)
          outputs := emulator.outputs (List.replicate (last + 1) .cycle)
          reply := .failed failure }

private theorem Paced.succ {emulator : Emulator} {count : Nat} {onward : Response}
    (first : (emulator.perform .cycle).reply = .done)
    (paced : (emulator.perform .cycle).emulator.Paced count onward) :
    emulator.Paced (count + 1)
      { onward with outputs := (emulator.perform .cycle).outputs ++ onward.outputs } := by
  cases paced with
  | finished succeeded => exact .finished (Nat.forall_lt_succ_left.mpr ⟨first, succeeded⟩)
  | cut last failure within succeeded failed =>
      exact .cut (last + 1) failure (Nat.succ_lt_succ within)
        (Nat.forall_lt_succ_left.mpr ⟨first, succeeded⟩) failed

private theorem paced_frame (emulator : Emulator) (count : Nat) :
    emulator.Paced count (emulator.perform (.frame count)) := by
  induction count generalizing emulator with
  | zero => exact .finished fun _ impossible => absurd impossible (Nat.not_lt_zero _)
  | succ count inductionHypothesis =>
      cases outcome : (emulator.machine.cycle emulator.table).failure with
      | none =>
          rw [perform_frame_of_success outcome]
          exact .succ (reply_act_done_iff.mpr outcome) (inductionHypothesis _)
      | some failure =>
          have failed : (emulator.cycleAfter 0).reply = .failed failure :=
            reply_act_failed_iff.mpr outcome
          have response : emulator.cycle =
              { emulator := emulator.after (List.replicate 1 .cycle)
                outputs := emulator.outputs (List.replicate 1 .cycle)
                reply := .failed failure } := by
            rw [← failed]
            simp only [List.replicate, after, outputs, List.append_nil]
            rfl
          rw [perform_frame_of_failure outcome, response]
          exact .cut 0 failure (Nat.succ_pos count)
            (fun _ impossible => absurd impossible (Nat.not_lt_zero _)) failed

end Emulator

/-! ### The mark on the panel -/

def Machine.unmarked (machine : Machine) : Machine :=
  { machine with panel := machine.panel.acknowledge }

def Step.unmarked {ε : Type} (step : Step ε) : Step ε :=
  { step with machine := step.machine.unmarked }

/-- The mark makes no difference to an action, except for the mark. -/
def Unread {ε : Type} (action : Machine → Step ε) : Prop :=
  ∀ machine : Machine, (action machine.unmarked).unmarked = (action machine).unmarked

theorem Machine.Coincides.unmarked {one other : Machine}
    (coincides : one.Coincides (· ≠ .mark) other) : one.unmarked = other.unmarked := by
  have screen : one.panel.acknowledge = other.panel.acknowledge :=
    Panel.ext coincides.screen rfl
  exact Machine.ext (coincides.memory_eq nofun) coincides.registers coincides.index
    coincides.counter screen (coincides.delay nofun) (coincides.sound nofun)
    (coincides.stack nofun) (coincides.keypad nofun) coincides.entropy

private theorem Instruction.unread_execute (instruction : Instruction) :
    Unread fun machine => instruction.execute machine := by
  intro machine
  have coincides : machine.Coincides (· ≠ .mark) (machine.refit machine.unmarked) :=
    { Machine.Coincides.refl (· ≠ .mark) machine with
      mark := fun impossible => absurd rfl impossible }
  have steps := instruction.coincides_execute coincides fun part read =>
    (reads_of_mem read).matters.1
  exact Step.ext steps.machine.unmarked.symm steps.signals.symm steps.failure.symm

theorem Machine.transparent_unmarked : Transparent unmarked :=
  { opcode := fun _ => rfl
    counter := fun _ => rfl
    skip := fun _ => rfl
    idempotent := fun _ => rfl
    tick := fun _ => rfl
    execute := Instruction.unread_execute }

namespace Machine

private theorem unread_cycle (table : RoutineTable) : Unread (cycle table) :=
  transparent_unmarked.cycle table

private theorem unread_frame (table : RoutineTable) (count : Nat) :
    Unread fun machine => machine.frame table count :=
  transparent_unmarked.frame table count

private theorem unread_load (program : List UInt8) : Unread (load program) := by
  intro machine
  unfold load
  split <;> rfl

private theorem unread_loadFrom (source : Source) : Unread (loadFrom source) :=
  transparent_unmarked.loadFrom unread_load source

end Machine

/-! ### Calls -/

def Call.offers : Call → Bool
  | .refresh _ => true
  | _ => false

/-- Emulators that differ in the mark on the panel and in the verbosity at most. -/
structure Emulator.Even (one other : Emulator) : Prop where
  machine : one.machine.unmarked = other.machine.unmarked
  table : one.table = other.table
  screenObserver : one.screenObserver = other.screenObserver
  buzzerObserver : one.buzzerObserver = other.buzzerObserver

/-- Responses that the host and the observers of the screen and of the buzzer cannot tell apart. -/
structure Response.Even (one other : Response) : Prop where
  emulator : one.emulator.Even other.emulator
  reply : one.reply = other.reply
  draws : one.outputs.filter Output.draws = other.outputs.filter Output.draws
  buzzes : one.outputs.filterMap Output.buzzed? = other.outputs.filterMap Output.buzzed?

namespace Emulator.Even

variable {one other : Emulator}

theorem act (even : one.Even other) {action : Machine → Step Failure} (unread : Unread action) :
    (one.act action).Even (other.act action) := by
  have respects : Respects Machine.unmarked action := unread
  have steps := respects.eq_of_view even.machine
  have signals := Step.signals_of_through steps
  refine ⟨{ even with machine := Step.machine_of_through steps }, ?_, ?_, ?_⟩
  · simp only [Emulator.act, Step.failure_of_through steps]
  · refine (one.filter_draws_deliver _).trans ?_
    rw [signals, even.screenObserver]
    exact (other.filter_draws_deliver _).symm
  · refine (one.filterMap_buzzed_deliver _).trans ?_
    rw [signals, even.buzzerObserver]
    exact (other.filterMap_buzzed_deliver _).symm

theorem modify (even : one.Even other) {change : Machine → Machine}
    (unread : ∀ machine : Machine, (change machine.unmarked).unmarked = (change machine).unmarked) :
    (one.modify change).Even (other.modify change) := by
  have machines : (change one.machine).unmarked = (change other.machine).unmarked := by
    rw [← unread one.machine, ← unread other.machine, even.machine]
  exact ⟨{ even with machine := machines }, rfl, rfl, rfl⟩

/-- Apart from a refresh, no call lets the host or an observer see the mark. -/
theorem perform (even : one.Even other) {call : Call} (silent : call.offers = false) :
    (one.perform call).Even (other.perform call) := by
  cases call with
  | reset =>
      simp only [Emulator.perform]
      exact even.act fun _ => rfl
  | load program => exact even.act (Machine.unread_load program)
  | loadFrom source => exact even.act (Machine.unread_loadFrom source)
  | cycle =>
      simp only [Emulator.perform, Emulator.cycle, even.table]
      exact even.act (Machine.unread_cycle other.table)
  | frame count =>
      simp only [Emulator.perform, Emulator.frame, even.table]
      exact even.act (Machine.unread_frame other.table count)
  | refresh present => cases silent
  | observeScreen observer => exact ⟨{ even with screenObserver := rfl }, rfl, rfl, rfl⟩
  | observeBuzzer observer => exact ⟨{ even with buzzerObserver := rfl }, rfl, rfl, rfl⟩
  | _ =>
      simp only [Emulator.perform]
      exact even.modify fun _ => rfl

end Emulator.Even

/-! ### Sessions -/

namespace Runner

namespace Session

structure Even (one other : Session) : Prop where
  emulator : one.emulator.Even other.emulator
  draws : one.draws = other.draws
  stops : one.stops = other.stops

variable {one other third : Session}

theorem Even.refl (session : Session) : session.Even session :=
  ⟨⟨rfl, rfl, rfl, rfl⟩, rfl, rfl⟩

theorem Even.symm (even : one.Even other) : other.Even one :=
  { emulator :=
      { machine := even.emulator.machine.symm
        table := even.emulator.table.symm
        screenObserver := even.emulator.screenObserver.symm
        buzzerObserver := even.emulator.buzzerObserver.symm }
    draws := even.draws.symm
    stops := even.stops.symm }

theorem Even.trans (first : one.Even other) (second : other.Even third) : one.Even third :=
  { emulator :=
      { machine := first.emulator.machine.trans second.emulator.machine
        table := first.emulator.table.trans second.emulator.table
        screenObserver := first.emulator.screenObserver.trans second.emulator.screenObserver
        buzzerObserver := first.emulator.buzzerObserver.trans second.emulator.buzzerObserver }
    draws := first.draws.trans second.draws
    stops := first.stops.trans second.stops }

theorem Even.counter (even : one.Even other) :
    one.emulator.machine.counter = other.emulator.machine.counter :=
  (Machine.ext_iff.mp even.emulator.machine).2.2.2.1

theorem Even.screen (even : one.Even other) :
    one.emulator.machine.panel.screen = other.emulator.machine.panel.screen :=
  (Panel.ext_iff.mp (Machine.ext_iff.mp even.emulator.machine).2.2.2.2.1).1

theorem Even.call (even : one.Even other) (call : Call) (silent : call.offers = false) :
    (one.call call).1.Even (other.call call).1 ∧ (one.call call).2 = (other.call call).2 := by
  have responses := even.emulator.perform silent
  refine ⟨?_, responses.reply⟩
  simp only [Session.call, absorb_eq_tally]
  refine ⟨responses.emulator, ?_, ?_⟩
  · simp only [tally, even.draws, responses.draws]
  · simp only [tally, even.stops, responses.buzzes]

theorem Even.record (even : one.Even other) (entry : Entry) : (one.record entry).Even other := by
  rw [Session.record]
  split
  · exact ⟨even.emulator, even.draws, even.stops⟩
  · exact even

theorem Even.review (even : one.Even other) (number : Nat) : (one.review number).Even other := by
  rw [Session.review]
  split
  · have recorded := even.record (.displayChanged number)
    exact ⟨{ recorded.emulator with machine := recorded.emulator.machine }, recorded.draws,
      recorded.stops⟩
  · exact even

section

variable {session : Session} {first : Nat}

private theorem call_frame_add_of_failure {failure : Failure}
    (failed : (session.call (.frame first)).2.failure? = some failure) (second : Nat) :
    session.call (.frame (first + second)) = session.call (.frame first) := by
  change (session.emulator.perform (.frame first)).reply.failure? = some failure at failed
  simp only [Session.call, Emulator.frame_add, Response.andThen, failed]

private theorem call_frame_add_of_success
    (success : (session.call (.frame first)).2.failure? = none) (second : Nat) :
    session.call (.frame (first + second)) =
      (session.call (.frame first)).1.call (.frame second) := by
  change (session.emulator.perform (.frame first)).reply.failure? = none at success
  simp only [Session.call, Emulator.frame_add, Response.andThen, success, absorb_eq_tally,
    tally_append]
  rfl

end

/-- Cycles taken in frames count as much as one long frame of all of them. -/
theorem Even.frames (even : one.Even other) (cycles remaining number : Nat) :
    (Session.frames cycles remaining number one).1.Even
        (other.call (.frame (remaining * cycles))).1 ∧
      (Session.frames cycles remaining number one).2 =
        (other.call (.frame (remaining * cycles))).2.failure? := by
  induction remaining generalizing one other number with
  | zero =>
      rw [Nat.zero_mul]
      exact ⟨⟨{ even.emulator with machine := even.emulator.machine }, even.draws, even.stops⟩, rfl⟩
  | succ remaining inductionHypothesis =>
      obtain ⟨sessions, replies⟩ := even.call (.frame cycles) rfl
      rw [frames_succ, Nat.succ_mul, Nat.add_comm _ cycles, replies]
      cases outcome : (other.call (.frame cycles)).2.failure? with
      | some failure =>
          rw [call_frame_add_of_failure outcome]
          exact ⟨sessions, outcome.symm⟩
      | none =>
          rw [call_frame_add_of_success outcome]
          exact inductionHypothesis (sessions.review number) (number + 1)

theorem Even.ready (even : one.Even other) (keys : List Key) :
    (one.ready keys).Even (other.ready keys) := by
  have screen := (even.call (.observeScreen (some "display")) rfl).1
  have watched := (screen.call (.observeBuzzer (some "buzzer")) rfl).1
  unfold Session.ready
  generalize ((one.call (.observeScreen (some "display"))).1.call
    (.observeBuzzer (some "buzzer"))).1 = first at watched ⊢
  generalize ((other.call (.observeScreen (some "display"))).1.call
    (.observeBuzzer (some "buzzer"))).1 = second at watched ⊢
  induction keys generalizing first second with
  | nil => exact watched
  | cons key rest inductionHypothesis =>
      exact inductionHypothesis _ _ (watched.call (.setKey key.val true) rfl).1

variable {settings others : Settings}
  (same : settings.frames * settings.cycles = others.frames * others.cycles)

include same

theorem Even.play (even : one.Even other) :
    (one.play settings).1.Even (other.play others).1 ∧
      (one.play settings).2 = (other.play others).2 := by
  -- Both are compared with one long frame of the second session.
  obtain ⟨sessions, failures⟩ := even.frames settings.cycles settings.frames 0
  obtain ⟨otherSessions, otherFailures⟩ :=
    (Even.refl other).frames others.cycles others.frames 0
  rw [← same] at otherSessions otherFailures
  have joined := sessions.trans otherSessions.symm
  simp only [Session.play, failures, otherFailures]
  cases (other.call (.frame (settings.frames * settings.cycles))).2.failure? with
  | some failure => exact ⟨joined, rfl⟩
  | none => exact ⟨((joined.record _).symm.record _).symm, rfl⟩

theorem Even.run (even : one.Even other) (keys : settings.keys = others.keys) (file : String)
    (source : Source) :
    (one.run settings file source).1.Even (other.run others file source).1 ∧
      (one.run settings file source).2 = (other.run others file source).2 := by
  obtain ⟨loaded, replies⟩ := even.call (.loadFrom source) rfl
  rw [run_eq, run_eq, replies, keys]
  cases (other.call (.loadFrom source)).2.failure? with
  | some failure => exact ⟨loaded, rfl⟩
  | none => exact (loaded.ready others.keys).play same

end Session

/-- Sessions that are even are reported with the same status and, if at all, the same screen. -/
theorem Session.Even.report {one other : Session} (even : one.Even other)
    (problem : Option Problem) (settings others : Settings)
    (verbosity otherVerbosity : Verbosity) :
    (Report.ofSession settings verbosity one problem).exit =
        (Report.ofSession others otherVerbosity other problem).exit ∧
      (settings.dump = others.dump →
        (Report.ofSession settings verbosity one problem).output =
          (Report.ofSession others otherVerbosity other problem).output) := by
  cases problem with
  | some problem => exact ⟨rfl, fun _ => rfl⟩
  | none =>
      refine ⟨rfl, ?_⟩
      intro dumps
      simp only [Report.ofSession, dumps, even.screen]

/-- A frame is its parts one after the other, the later one only if the earlier one succeeds, and
a frame that fails has run its cycles up to the first that fails. Runs of a program that take as
many cycles in all, in frames of whatever length, therefore end with the same problem, or finish
with the same program counter, screen and counts. -/
theorem frames_compose :
    (∀ (emulator : Emulator) (first second : Nat),
      emulator.perform (.frame (first + second)) =
        (emulator.perform (.frame first)).andThen fun reached =>
          reached.perform (.frame second)) ∧
      (∀ (emulator : Emulator) (count : Nat),
        emulator.Paced count (emulator.perform (.frame count))) ∧
      ∀ settings others : Settings, settings.keys = others.keys →
        settings.frames * settings.cycles = others.frames * others.cycles →
        ∀ (verbosity otherVerbosity : Verbosity) (file : String) (entropy : Entropy)
          (source : Source),
          let one := (Session.fresh entropy verbosity).run settings file source
          let other := (Session.fresh entropy otherVerbosity).run others file source
          let report := Runner.run settings verbosity file entropy (.opened source)
          let otherReport := Runner.run others otherVerbosity file entropy (.opened source)
          one.2 = other.2 ∧
            (one.2 = none →
              one.1.emulator.machine.counter = other.1.emulator.machine.counter ∧
                one.1.emulator.machine.panel.screen = other.1.emulator.machine.panel.screen ∧
                one.1.draws = other.1.draws ∧ one.1.stops = other.1.stops) ∧
            report.exit = otherReport.exit ∧
            (settings.dump = others.dump → report.output = otherReport.output) := by
  refine ⟨Emulator.frame_add, Emulator.paced_frame, ?_⟩
  intro settings others keys cycles verbosity otherVerbosity file entropy source one other
    report otherReport
  have fresh : (Session.fresh entropy verbosity).Even (.fresh entropy otherVerbosity) :=
    ⟨⟨rfl, rfl, rfl, rfl⟩, rfl, rfl⟩
  obtain ⟨even, problems⟩ : one.1.Even other.1 ∧ one.2 = other.2 :=
    fresh.run cycles keys file source
  have reported : report = .ofSession settings verbosity one.1 one.2 :=
    run_opened settings verbosity file entropy source
  have otherReported : otherReport = .ofSession others otherVerbosity other.1 other.2 :=
    run_opened others otherVerbosity file entropy source
  rw [reported, otherReported, problems]
  exact ⟨rfl, fun _ => ⟨even.counter, even.screen, even.draws, even.stops⟩,
    even.report other.2 settings others verbosity otherVerbosity⟩

/-- One frame of two cycles and two frames of one cycle, where both cycles clear the screen. -/
theorem frames_compose_clear_screen :
    let settings : Settings := { cycles := 2, frames := 1, keys := [], dump := false }
    let others : Settings := { cycles := 1, frames := 2, keys := [], dump := false }
    let source : Source := { chunks := [[0x00, 0xE0, 0x00, 0xE0]], failure := none }
    let one := (Session.fresh (.seeded 0) none).run settings "clear" source
    let other := (Session.fresh (.seeded 0) none).run others "clear" source
    settings.keys = others.keys ∧
      settings.frames * settings.cycles = others.frames * others.cycles ∧
      one.2.isNone = true ∧ one.1.draws = 2 ∧ other.2.isNone = true ∧ other.1.draws = 2 := by
  intro settings others source one other
  have keys : settings.keys = others.keys := rfl
  have cycles : settings.frames * settings.cycles = others.frames * others.cycles := rfl
  have finished : one.2.isNone = true := by decide +kernel
  have draws : one.1.draws = 2 := by decide +kernel
  obtain ⟨problems, counts, _⟩ :=
    frames_compose.2.2 settings others keys cycles none none "clear" (.seeded 0) source
  obtain ⟨_, _, sameDraws, _⟩ := counts (Option.isNone_iff_eq_none.mp finished)
  exact ⟨keys, cycles, finished, draws, problems ▸ finished, sameDraws ▸ draws⟩

end Runner

end Chip8
