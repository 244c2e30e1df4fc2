import Chip8.Proofs.Acknowledgement
import Chip8.Proofs.Buzzer
import Chip8.Runner.Tally

/-!
A run as a succession of rounds. In each round a frame runs, and then the screen is acknowledged. So
the mark on the panel is gone before the next frame begins, and after a frame it tells what that
frame alone did.
-/

namespace Chip8

/-! ### Frames -/

namespace Emulator

variable {emulator : Emulator} {count : Nat}

theorem reply_frame_of_completes
    (complete : ∀ moment ∈ emulator.frameMoments count, moment.completes = true) :
    (emulator.perform (.frame count)).reply = .done ∧
      (emulator.frameMoments count).length = count := by
  induction count generalizing emulator with
  | zero => exact ⟨rfl, rfl⟩
  | succ count inductionHypothesis =>
      rw [frameMoments] at complete ⊢
      obtain ⟨here, onward⟩ := List.forall_mem_cons.mp complete
      have success := Option.isNone_iff_eq_none.mp here
      rw [success] at onward ⊢
      obtain ⟨reply, length⟩ := inductionHypothesis onward
      rw [perform_frame_of_success success, List.length_cons]
      exact ⟨reply, congrArg (· + 1) length⟩

/-- A frame ends with the failure of its cycle that fails. -/
theorem reply_frame_of_mem {moment : Moment} (member : moment ∈ emulator.frameMoments count)
    (failed : moment.completes = false) :
    ∃ failure, moment.response.reply = .failed failure ∧
      (emulator.perform (.frame count)).reply = .failed failure := by
  induction count generalizing emulator with
  | zero => cases member
  | succ count inductionHypothesis =>
      rw [frameMoments] at member
      cases outcome : (emulator.machine.cycle emulator.table).failure with
      | none =>
          rw [outcome] at member
          rw [perform_frame_of_success outcome]
          rcases List.mem_cons.mp member with first | later
          · rw [first, Moment.completes_of_cycle rfl, outcome] at failed
            cases failed
          · exact inductionHypothesis later
      | some failure =>
          rw [outcome] at member
          have reply : emulator.cycle.reply = .failed failure := reply_act_failed_iff.mpr outcome
          rw [perform_frame_of_failure outcome, List.mem_singleton.mp member]
          exact ⟨failure, reply, reply⟩

end Emulator

/-! ### Watched emulators -/

theorem Verbosity.keeps_of_rank_le {verbosity : Verbosity} {level other : Level}
    (severe : other.rank ≤ level.rank) (kept : verbosity.keeps level = true) :
    verbosity.keeps other = true := by
  cases verbosity with
  | none => cases kept
  | some limit => exact decide_eq_true (Nat.le_trans severe (of_decide_eq_true kept))

/-- Frames with the screen acknowledged after each of them. -/
def Call.rounds (cycles : Nat) : Nat → List Call
  | 0 => []
  | count + 1 => .frame cycles :: .acknowledge :: rounds cycles count

/-- An emulator as it is during a run: both observers are in place, and details are logged. -/
structure Emulator.Watched (emulator : Emulator) : Prop where
  full : emulator.table = .standard
  screenObserver : emulator.screenObserver.isSome = true
  buzzerObserver : emulator.buzzerObserver.isSome = true
  verbose : emulator.verbosity.keeps .debug = true

namespace Emulator.Watched

variable {emulator : Emulator}

theorem withMachine (watched : emulator.Watched) (machine : Machine) :
    { emulator with machine := machine }.Watched :=
  ⟨watched.full, watched.screenObserver, watched.buzzerObserver, watched.verbose⟩

theorem after_rounds (watched : emulator.Watched) (cycles count : Nat) :
    (emulator.after (Call.rounds cycles count)).Watched := by
  induction count generalizing emulator with
  | zero => exact watched
  | succ count inductionHypothesis =>
      exact inductionHypothesis (watched.withMachine _)

theorem of_mem_frameMoments (watched : emulator.Watched) (count : Nat) :
    ∀ moment ∈ emulator.frameMoments count, moment.before.Watched := by
  refine ((emulator.run_frame count).invariant Watched ?_ watched).1
  intro moment member before
  rw [Moment.after, Moment.response_of_cycle (call_of_mem_frameMoments member)]
  exact before.withMachine _

variable (watched : emulator.Watched) (count : Nat)

include watched

theorem length_draws_frame :
    ((emulator.perform (.frame count)).outputs.filter Output.draws).length =
      (emulator.frameMoments count).countP Moment.paints := by
  have shown := (emulator.run_frame count).map_draws watched.full fun moment member =>
    (watched.of_mem_frameMoments count moment member).screenObserver
  have lengths := congrArg List.length shown
  rw [List.length_map, List.length_map] at lengths
  rw [outputs_frame, lengths, List.countP_eq_length_filter]

theorem length_buzzed_frame :
    ((emulator.perform (.frame count)).outputs.filterMap Output.buzzed?).length =
      (emulator.frameMoments count).countP Moment.expires := by
  rw [outputs_frame, (emulator.run_frame count).buzzed watched.full,
    List.countP_eq_length_filter, List.filterMap_length_eq_length]
  intro moment member
  have among := List.mem_of_mem_filter member
  exact (watched.of_mem_frameMoments count moment among).buzzerObserver

end Emulator.Watched

namespace Runner

private theorem Entry.keeps_of_mem_act {emulator : Emulator}
    (verbose : emulator.verbosity.keeps .debug = true) (action : Machine → Step Failure) :
    ∀ entry ∈ (emulator.act action).outputs.filterMap Entry.ofOutput?,
      emulator.verbosity.keeps entry.level = true := by
  intro entry member
  obtain ⟨output, put, entered⟩ := List.mem_filterMap.mp member
  obtain ⟨signal, sent, delivered⟩ := List.mem_filterMap.mp put
  cases output with
  | line notice =>
      cases signal with
      | noticed other =>
          simp only [Emulator.deliver?, Option.ite_none_right_eq_some] at delivered
          obtain ⟨kept, same⟩ := delivered
          cases same
          cases entered
          exact kept
      | redrawn screen =>
          obtain ⟨_, _, same⟩ := Option.map_eq_some_iff.mp delivered
          cases same
      | buzzerStopped =>
          obtain ⟨_, _, same⟩ := Option.map_eq_some_iff.mp delivered
          cases same
  | drawn observer screen width height => cases entered
  | buzzed observer =>
      cases entered
      exact verbose

end Runner

/-! ### Rounds -/

def Moment.entries (moment : Moment) : List Runner.Entry :=
  moment.response.outputs.filterMap Runner.Entry.ofOutput?

theorem Emulator.entries_frame (emulator : Emulator) (count : Nat) :
    (emulator.perform (.frame count)).outputs.filterMap Runner.Entry.ofOutput? =
      (emulator.frameMoments count).flatMap Moment.entries := by
  rw [outputs_frame, List.filterMap_flatMap]
  rfl

def Emulator.frameCycles (emulator : Emulator) (cycles number : Nat) : List Moment :=
  (emulator.after (Call.rounds cycles number)).frameMoments cycles

private theorem Emulator.acknowledge_of_unchanged {emulator : Emulator}
    (unchanged : emulator.machine.panel.changed = false) :
    (emulator.perform .acknowledge).emulator = emulator := by
  have panel : emulator.machine.panel.acknowledge = emulator.machine.panel :=
    Panel.ext rfl unchanged.symm
  simp only [perform, modify, Response.silent, panel]

namespace Runner

/-- The lines of a frame: those of its cycles, and one that names the frame if it painted. -/
def frameEntries (number : Nat) (cycles : List Moment) : List Entry :=
  cycles.flatMap Moment.entries ++
    if cycles.any Moment.paints then [.displayChanged number] else []

namespace Session

variable {session : Session} (watched : session.emulator.Watched)

include watched

theorem call_frame_eq (count : Nat) :
    (session.call (.frame count)).1 =
      { emulator := (session.emulator.perform (.frame count)).emulator
        draws := session.draws + (session.emulator.frameMoments count).countP Moment.paints
        stops := session.stops + (session.emulator.frameMoments count).countP Moment.expires
        entries :=
          ((session.emulator.frameMoments count).flatMap Moment.entries).reverse ++
            session.entries } := by
  have kept : ∀ entry ∈ (session.emulator.frameMoments count).flatMap Moment.entries,
      (session.emulator.perform (.frame count)).emulator.verbosity.keeps entry.level = true := by
    rw [← Emulator.entries_frame]
    exact Entry.keeps_of_mem_act watched.verbose _
  simp only [call, absorb_eq_tally, tally, watched.length_draws_frame, watched.length_buzzed_frame,
    Emulator.entries_frame, List.filter_eq_self.mpr kept]

private theorem review_eq (number : Nat) :
    session.review number =
      { session with
        emulator := (session.emulator.perform .acknowledge).emulator
        entries :=
          (if session.emulator.machine.panel.changed then [.displayChanged number] else []) ++
            session.entries } := by
  rw [review]
  cases changed : session.emulator.machine.panel.changed with
  | false => rw [Emulator.acknowledge_of_unchanged changed]; rfl
  | true =>
      have kept : session.emulator.verbosity.keeps (Entry.displayChanged number).level = true :=
        watched.verbose
      simp only [if_true, record, kept]
      rfl

variable (unchanged : session.emulator.machine.panel.changed = false)

include unchanged

/-- After a frame, the mark tells whether the frame painted. -/
theorem review_call_frame (count number : Nat) :
    (session.call (.frame count)).1.review number =
      { emulator := session.emulator.after [.frame count, .acknowledge]
        draws := session.draws + (session.emulator.frameMoments count).countP Moment.paints
        stops := session.stops + (session.emulator.frameMoments count).countP Moment.expires
        entries :=
          (frameEntries number (session.emulator.frameMoments count)).reverse ++
            session.entries } := by
  have cycles : ∀ moment ∈ session.emulator.frameMoments count, moment.acknowledges = false := by
    intro moment member
    rw [Moment.acknowledges, Emulator.call_of_mem_frameMoments member]
  have changed := (session.emulator.run_frame count).changed watched.full cycles
  rw [unchanged, Bool.false_or] at changed
  have later : (session.call (.frame count)).1.emulator.Watched := by
    rw [call_frame_eq watched]
    exact watched.withMachine _
  rw [review_eq later, call_frame_eq watched]
  simp only [changed, frameEntries, List.reverse_append, List.append_assoc, Emulator.after]
  split <;> rfl

end Session

/-! ### Runs -/

def roundCycles (emulator : Emulator) (cycles count : Nat) : List Moment :=
  (List.range count).flatMap (emulator.frameCycles cycles)

def roundEntries (emulator : Emulator) (cycles first count : Nat) : List Entry :=
  (List.range count).flatMap fun number =>
    frameEntries (first + number) (emulator.frameCycles cycles number)

section

variable (emulator : Emulator) (cycles first count : Nat)

theorem roundCycles_succ :
    roundCycles emulator cycles (count + 1) =
      emulator.frameMoments cycles ++
        roundCycles (emulator.after [.frame cycles, .acknowledge]) cycles count := by
  rw [roundCycles, List.range_succ_eq_map, List.flatMap_cons, List.flatMap_map]
  rfl

theorem roundEntries_succ :
    roundEntries emulator cycles first (count + 1) =
      frameEntries first (emulator.frameMoments cycles) ++
        roundEntries (emulator.after [.frame cycles, .acknowledge]) cycles (first + 1) count := by
  rw [roundEntries, List.range_succ_eq_map, List.flatMap_cons, List.flatMap_map, roundEntries]
  simp only [Nat.succ_eq_add_one, Nat.add_assoc, Nat.add_comm 1]
  rfl

end

namespace Session

def afterRounds (session : Session) (cycles first count : Nat) : Session :=
  { emulator := session.emulator.after (Call.rounds cycles count)
    draws := session.draws + (roundCycles session.emulator cycles count).countP Moment.paints
    stops := session.stops + (roundCycles session.emulator cycles count).countP Moment.expires
    entries := (roundEntries session.emulator cycles first count).reverse ++ session.entries }

private theorem afterRounds_succ {session : Session} (watched : session.emulator.Watched)
    (unchanged : session.emulator.machine.panel.changed = false) (cycles first count : Nat) :
    session.afterRounds cycles first (count + 1) =
      ((session.call (.frame cycles)).1.review first).afterRounds cycles (first + 1) count := by
  rw [review_call_frame watched unchanged]
  simp only [afterRounds, roundCycles_succ, roundEntries_succ, List.countP_append,
    List.reverse_append, List.append_assoc, Nat.add_assoc]
  rfl

/-- As long as the cycles succeed, frames go on round after round. -/
theorem frames_add {session : Session} (watched : session.emulator.Watched)
    (unchanged : session.emulator.machine.panel.changed = false) {cycles count : Nat}
    (complete : ∀ number < count, ∀ moment ∈ session.emulator.frameCycles cycles number,
      moment.completes = true)
    (remaining first : Nat) :
    frames cycles (count + remaining) first session =
      frames cycles remaining (first + count) (session.afterRounds cycles first count) := by
  induction count generalizing session first with
  | zero => rw [Nat.zero_add]; rfl
  | succ count inductionHypothesis =>
      obtain ⟨here, onward⟩ := Nat.forall_lt_succ_left.mp complete
      have success : (session.call (.frame cycles)).2.failure? = none :=
        congrArg Reply.failure? (Emulator.reply_frame_of_completes here).1
      have next := review_call_frame watched unchanged cycles first
      rw [Nat.succ_add, frames_succ, success, afterRounds_succ watched unchanged,
        Nat.add_comm count 1, ← Nat.add_assoc]
      apply inductionHypothesis
      · rw [next]
        exact watched.withMachine _
      · rw [next]
        rfl
      · rw [next]
        exact onward

section

variable {session : Session} (watched : session.emulator.Watched)
  (unchanged : session.emulator.machine.panel.changed = false) {settings : Settings}

include watched unchanged

theorem play_of_completes
    (complete : ∀ number < settings.frames,
      ∀ moment ∈ session.emulator.frameCycles settings.cycles number, moment.completes = true) :
    let ended := session.afterRounds settings.cycles 0 settings.frames
    let summary := Entry.summary settings ended.draws ended.stops ended.emulator.machine.counter
    session.play settings = ({ ended with entries := summary :: ended.entries }, none) := by
  intro ended summary
  have rounds := frames_add watched unchanged complete 0 0
  rw [Nat.add_zero] at rounds
  have severe : Level.info.rank ≤ Level.debug.rank := by decide
  have kept : ended.emulator.verbosity.keeps summary.level = true :=
    Verbosity.keeps_of_rank_le severe
      (watched.after_rounds settings.cycles settings.frames).verbose
  simp only [play, rounds, frames, record]
  exact congrArg (·, none) (if_pos kept)

theorem play_of_failed {number : Nat} (within : number < settings.frames)
    (complete : ∀ earlier < number,
      ∀ moment ∈ session.emulator.frameCycles settings.cycles earlier, moment.completes = true)
    {failure : Failure}
    (failed : ((session.emulator.after (Call.rounds settings.cycles number)).perform
      (.frame settings.cycles)).reply = .failed failure) :
    session.play settings =
      (((session.afterRounds settings.cycles 0 number).call (.frame settings.cycles)).1,
        some (.failed failure)) := by
  obtain ⟨remaining, count⟩ := Nat.exists_eq_add_of_lt within
  have rounds := frames_add watched unchanged complete (remaining + 1) 0
  rw [← Nat.add_assoc, ← count, frames_succ] at rounds
  have reply : ((session.afterRounds settings.cycles 0 number).call
      (.frame settings.cycles)).2.failure? = some failure :=
    congrArg Reply.failure? failed
  rw [reply] at rounds
  simp only [play, rounds]

end

end Session

end Runner

end Chip8
