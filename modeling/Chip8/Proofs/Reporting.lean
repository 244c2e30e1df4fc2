import Chip8.Proofs.Noninterference
import Chip8.Proofs.Rounds

/-!
The report of a run is exact. It names every frame that painted, counts every painting and every end
of a sound, and shows the screen at the end. Where a cycle fails, it names the earlier frames that
painted and ends with what made the cycle fail.
-/

namespace Chip8

private theorem Machine.loadFrom_of_fits {source : Source} {program : List UInt8}
    (arrived : source.contents = .ok program) (fits : program.length ≤ programCapacity)
    (machine : Machine) :
    machine.loadFrom source =
      .sending
        { machine with
          memory := machine.memory.overwrite programStart program
          counter := UInt16.ofNat programStart }
        [.noticed (.programLoaded program.length)] := by
  rw [loadFrom, arrived]
  exact load_of_le fits machine

namespace Runner

/-! ### Before the first frame -/

/-- What a run asks of its emulator once the program is in place. -/
def arrangement (keys : List Key) : List Call :=
  .observeScreen (some "display") :: .observeBuzzer (some "buzzer") ::
    keys.map fun key => .setKey key.val true

def prepared (source : Source) (keys : List Key) (entropy : Entropy) (verbosity : Verbosity) :
    Emulator :=
  (Emulator.unobserved .standard entropy verbosity).after
    (.loadFrom source :: arrangement keys)

private theorem Session.ready_eq (session : Session) (keys : List Key) :
    session.ready keys =
      { session with emulator := session.emulator.after (arrangement keys) } := by
  have pressed (watched : Session) :
      keys.foldl (fun session key => (session.call (.setKey key.val true)).1) watched =
        { watched with
          emulator := watched.emulator.after (keys.map fun key => .setKey key.val true) } := by
    induction keys generalizing watched with
    | nil => rfl
    | cons key rest inductionHypothesis =>
        rw [List.foldl_cons, inductionHypothesis]
        rfl
  exact pressed _

private theorem watched_after_arrangement {emulator : Emulator} (full : emulator.table = .standard)
    (verbose : emulator.verbosity.keeps .debug = true)
    (unchanged : emulator.machine.panel.changed = false) (keys : List Key) :
    (emulator.after (arrangement keys)).Watched ∧
      (emulator.after (arrangement keys)).machine.panel.changed = false := by
  let watched : Emulator :=
    { emulator with screenObserver := some "display", buzzerObserver := some "buzzer" }
  have begun : watched.Watched ∧ watched.machine.panel.changed = false :=
    ⟨⟨full, rfl, rfl, verbose⟩, unchanged⟩
  change (watched.after (keys.map fun key => .setKey key.val true)).Watched ∧ _
  refine Emulator.after_preserves
    (fun reached => reached.Watched ∧ reached.machine.panel.changed = false) ?_ begun
  rintro reached call member ⟨held, unmarked⟩
  obtain ⟨key, _, same⟩ := List.mem_map.mp member
  subst same
  exact ⟨held.withMachine _, unmarked⟩

private theorem watched_prepared (source : Source) (keys : List Key) (entropy : Entropy)
    {verbosity : Verbosity} (verbose : verbosity.keeps .debug = true) :
    (prepared source keys entropy verbosity).Watched ∧
      (prepared source keys entropy verbosity).machine.panel.changed = false := by
  have unchanged : (Machine.loadFrom source (.initial entropy)).machine.panel.changed = false :=
    (Machine.initial entropy).view_loadFrom (fun machine => machine.panel.changed)
      (fun _ _ _ => rfl) source
  rw [prepared, Emulator.after]
  exact watched_after_arrangement rfl verbose unchanged keys

private theorem call_loadFrom {source : Source} {program : List UInt8}
    (arrived : source.contents = .ok program) (fits : program.length ≤ programCapacity)
    {session : Session} (verbose : session.emulator.verbosity.keeps .debug = true) :
    session.call (.loadFrom source) =
      ({ session with
          emulator := (session.emulator.perform (.loadFrom source)).emulator
          entries := .machine (.programLoaded program.length) :: session.entries }, .done) := by
  have kept : session.emulator.verbosity.keeps (Notice.programLoaded program.length).level = true :=
    verbose
  have outputs : (session.emulator.perform (.loadFrom source)).outputs =
      [.line (.programLoaded program.length)] := by
    simp only [Emulator.perform, Emulator.act, Machine.loadFrom_of_fits arrived fits,
      Step.sending, List.filterMap_cons, Emulator.deliver?, kept, if_true, List.filterMap_nil]
  have reply : (session.emulator.perform (.loadFrom source)).reply = .done := by
    simp only [Emulator.perform, Emulator.act, Machine.loadFrom_of_fits arrived fits, Step.sending]
  have verbosity : (session.emulator.perform (.loadFrom source)).emulator.verbosity =
      session.emulator.verbosity := rfl
  have entry : (Entry.machine (.programLoaded program.length)).level = .debug := rfl
  simp only [Session.call, Session.absorb_eq_tally, reply, outputs, Session.tally,
    List.filterMap_cons, Entry.ofOutput?, List.filterMap_nil, verbosity, List.filter_cons, entry,
    verbose, if_true]
  rfl

/-! ### Reading the report -/

namespace Entry

def frame? : Entry → Option Nat
  | .displayChanged number => some number
  | _ => none

def stops : Entry → Bool
  | .buzzerStopped => true
  | _ => false

def summary? : Entry → Option (Nat × Nat × UInt16)
  | .summary _ draws stops counter => some (draws, stops, counter)
  | _ => none

def error? : Entry → Option String
  | .problem text => some text
  | .cause text => some text
  | _ => none

end Entry

private theorem filterMap_entries {α : Type} {pick : Entry → Option α}
    (machine : ∀ notice, pick (.machine notice) = none) (buzzer : pick .buzzerStopped = none)
    (moments : List Moment) : (moments.flatMap Moment.entries).filterMap pick = [] := by
  apply List.filterMap_eq_nil_iff.mpr
  intro entry member
  obtain ⟨moment, _, among⟩ := List.mem_flatMap.mp member
  obtain ⟨output, _, entered⟩ := List.mem_filterMap.mp among
  cases output with
  | line notice => cases entered; exact machine notice
  | drawn observer screen width height => cases entered
  | buzzed observer => cases entered; exact buzzer

section

variable (emulator : Emulator) (cycles count : Nat)

/-- The frames that are named are those that painted, in order. -/
theorem frames_roundEntries :
    (roundEntries emulator cycles 0 count).filterMap Entry.frame? =
      (List.range count).filter fun number =>
        (emulator.frameCycles cycles number).any Moment.paints := by
  have one (number : Nat) :
      (frameEntries (0 + number) (emulator.frameCycles cycles number)).filterMap Entry.frame? =
        if (emulator.frameCycles cycles number).any Moment.paints then (some number).toList
        else [] := by
    rw [frameEntries, List.filterMap_append, filterMap_entries (fun _ => rfl) rfl, Nat.zero_add]
    split <;> rfl
  rw [roundEntries, List.filterMap_flatMap, funext one, flatMap_toList, List.filterMap_some]

private theorem filterMap_roundEntries {α : Type} {pick : Entry → Option α}
    (machine : ∀ notice, pick (.machine notice) = none) (buzzer : pick .buzzerStopped = none)
    (changed : ∀ number, pick (.displayChanged number) = none) :
    (roundEntries emulator cycles 0 count).filterMap pick = [] := by
  rw [roundEntries, List.filterMap_flatMap]
  apply List.flatMap_eq_nil_iff.mpr
  intro number _
  rw [frameEntries, List.filterMap_append, filterMap_entries machine buzzer, List.nil_append]
  split
  · rw [List.filterMap_cons_none (changed _), List.filterMap_nil]
  · rfl

private theorem filterMap_run {α : Type} {pick : Entry → Option α}
    (machine : ∀ notice, pick (.machine notice) = none) (buzzer : pick .buzzerStopped = none)
    (changed : ∀ number, pick (.displayChanged number) = none) (notice : Notice)
    (moments : List Moment) (last : List Entry) :
    ((.machine notice :: roundEntries emulator cycles 0 count) ++ moments.flatMap Moment.entries ++
      last).filterMap pick = last.filterMap pick := by
  rw [List.filterMap_append, List.filterMap_append, List.filterMap_cons_none (machine notice),
    filterMap_roundEntries emulator cycles count machine buzzer changed,
    filterMap_entries machine buzzer, List.nil_append, List.nil_append]

end

private theorem filterMap_failed {α : Type} {pick : Entry → Option α}
    (problem : ∀ text, pick (.problem text) = none) (cause : ∀ text, pick (.cause text) = none)
    (backtrace : pick .backtrace = none) (failure : Failure) (kept : Entry → Bool) :
    ((Problem.failed failure).entries.filter kept).filterMap pick = [] := by
  apply List.filterMap_eq_nil_iff.mpr
  intro entry member
  rcases List.mem_cons.mp (List.mem_of_mem_filter member) with first | later
  · rw [first]
    exact problem _
  · rcases List.mem_append.mp later with inner | last
    · obtain ⟨text, _, same⟩ := List.mem_map.mp inner
      rw [← same]
      exact cause text
    · rw [List.mem_singleton.mp last]
      exact backtrace

private theorem errors_failed {verbosity : Verbosity} (verbose : verbosity.keeps .debug = true)
    (failure : Failure) :
    ((Problem.failed failure).entries.filter fun entry =>
      verbosity.keeps entry.level).filterMap Entry.error? = failure.message :: failure.causes := by
  have error : verbosity.keeps .error = true := Verbosity.keeps_of_rank_le (by decide) verbose
  have info : verbosity.keeps .info = true := Verbosity.keeps_of_rank_le (by decide) verbose
  have kept (entry : Entry) :
      (if verbosity.keeps entry.level then entry.error? else none) = entry.error? := by
    cases entry with
    | problem text => exact if_pos error
    | cause text => exact if_pos info
    | _ => exact ite_self _
  have entries : (Problem.failed failure).entries =
      .problem failure.message :: failure.causes.map .cause ++ [.backtrace] := rfl
  rw [List.filterMap_filter, funext kept, entries, List.filterMap_append, List.filterMap_cons,
    List.filterMap_map]
  simp only [Entry.error?, Function.comp_def, List.filterMap_some, List.filterMap_cons,
    List.filterMap_nil, List.append_nil]

section

variable {emulator : Emulator} (watched : emulator.Watched) (cycles count : Nat)

include watched

private theorem countP_stops_entries :
    ((emulator.frameMoments count).flatMap Moment.entries).countP Entry.stops =
      (emulator.frameMoments count).countP Moment.expires := by
  rw [← watched.length_buzzed_frame, ← emulator.entries_frame, List.countP_filterMap,
    List.length_filterMap_eq_countP]
  congr 1
  funext output
  cases output <;> rfl

private theorem countP_stops_roundEntries (first : Nat) :
    (roundEntries emulator cycles first count).countP Entry.stops =
      (roundCycles emulator cycles count).countP Moment.expires := by
  induction count generalizing emulator first with
  | zero => rfl
  | succ count inductionHypothesis =>
      have named : (if (emulator.frameMoments cycles).any Moment.paints then
          [Entry.displayChanged first] else []).countP Entry.stops = 0 := by
        split <;> rfl
      have next : (emulator.after [.frame cycles, .acknowledge]).Watched :=
        watched.after_rounds cycles 1
      rw [roundEntries_succ, roundCycles_succ, List.countP_append, List.countP_append, frameEntries,
        List.countP_append, countP_stops_entries watched, named, Nat.add_zero,
        inductionHypothesis next]

end

private theorem length_roundCycles {emulator : Emulator} {cycles count : Nat}
    (complete : ∀ number < count, ∀ moment ∈ emulator.frameCycles cycles number,
      moment.completes = true) :
    (roundCycles emulator cycles count).length = count * cycles := by
  induction count generalizing emulator with
  | zero => rw [Nat.zero_mul]; rfl
  | succ count inductionHypothesis =>
      obtain ⟨here, onward⟩ := Nat.forall_lt_succ_left.mp complete
      have length : (emulator.frameMoments cycles).length = cycles :=
        (Emulator.reply_frame_of_completes here).2
      have rest :
          (roundCycles (emulator.after [.frame cycles, .acknowledge]) cycles count).length =
            count * cycles := inductionHypothesis onward
      rw [roundCycles_succ, List.length_append, length, rest, Nat.succ_mul, Nat.add_comm]

private theorem run_of_fits {source : Source} {program : List UInt8}
    (arrived : source.contents = .ok program) (fits : program.length ≤ programCapacity)
    {session : Session} (verbose : session.emulator.verbosity.keeps .debug = true)
    (settings : Settings) (file : String) :
    session.run settings file source =
      { session with
        emulator := session.emulator.after (.loadFrom source :: arrangement settings.keys)
        entries := .machine (.programLoaded program.length) :: session.entries }.play settings := by
  rw [Session.run_eq, call_loadFrom arrived fits verbose]
  simp only [Reply.failure?, Session.ready_eq]
  rfl

section

variable {ready : Emulator} (watched : ready.Watched)
  (unchanged : ready.machine.panel.changed = false) {settings : Settings} (entry : Entry)

include watched unchanged

private theorem report_of_completes
    (complete : ∀ number < settings.frames,
      ∀ moment ∈ ready.frameCycles settings.cycles number, moment.completes = true) :
    let outcome := Session.play { emulator := ready, draws := 0, stops := 0, entries := [entry] }
      settings
    let cycles := roundCycles ready settings.cycles settings.frames
    let machine := (ready.after (Call.rounds settings.cycles settings.frames)).machine
    let summary := Entry.summary settings (cycles.countP Moment.paints)
      (cycles.countP Moment.expires) machine.counter
    Report.ofSession settings ready.verbosity outcome.1 outcome.2 =
      { exit := 0
        output := if settings.dump then machine.panel.screen.lines else []
        log := ((entry :: roundEntries ready settings.cycles 0 settings.frames) ++
          [summary]).map Entry.line } := by
  intro outcome cycles machine summary
  let first : Session := { emulator := ready, draws := 0, stops := 0, entries := [entry] }
  have watchedFirst : first.emulator.Watched := watched
  have played : outcome = _ := Session.play_of_completes watchedFirst unchanged complete
  rw [played]
  simp only [Report.ofSession, Session.afterRounds, first, Nat.zero_add, List.reverse_cons,
    List.reverse_append, List.reverse_reverse, List.reverse_nil, List.nil_append,
    List.singleton_append]
  rfl

private theorem report_of_failed {number : Nat} (within : number < settings.frames)
    (complete : ∀ earlier < number,
      ∀ moment ∈ ready.frameCycles settings.cycles earlier, moment.completes = true)
    {failure : Failure}
    (failed : ((ready.after (Call.rounds settings.cycles number)).perform
      (.frame settings.cycles)).reply = .failed failure) :
    let outcome := Session.play { emulator := ready, draws := 0, stops := 0, entries := [entry] }
      settings
    Report.ofSession settings ready.verbosity outcome.1 outcome.2 =
      { exit := 1
        output := []
        log := ((entry :: roundEntries ready settings.cycles 0 number) ++
          (ready.frameCycles settings.cycles number).flatMap Moment.entries ++
          (Problem.failed failure).entries.filter fun entry =>
            ready.verbosity.keeps entry.level).map Entry.line } := by
  intro outcome
  let first : Session := { emulator := ready, draws := 0, stops := 0, entries := [entry] }
  have watchedFirst : first.emulator.Watched := watched
  have played : outcome = _ :=
    Session.play_of_failed watchedFirst unchanged within complete failed
  have cut : ((first.afterRounds settings.cycles 0 number).call (.frame settings.cycles)).1 = _ :=
    Session.call_frame_eq (watched.after_rounds settings.cycles number) settings.cycles
  rw [played, cut]
  simp only [Report.ofSession, Report.ofProblem, Session.afterRounds, first, List.reverse_cons,
    List.reverse_append, List.reverse_reverse, List.reverse_nil, List.nil_append,
    List.singleton_append]
  rfl

end

/-- The report of a run is exact, for every program that loads. If all cycles succeed, it names
exactly the frames that painted, and its summary counts the paintings and the ends of a sound. If
a cycle fails, it names exactly the earlier frames that painted, shows no summary and no screen,
and ends with what made that cycle fail. -/
theorem report_exact {source : Source} {program : List UInt8} {verbosity : Verbosity}
    (arrived : source.contents = .ok program) (fits : program.length ≤ programCapacity)
    (verbose : verbosity.keeps .debug = true) (settings : Settings) (file : String)
    (entropy : Entropy) :
    let ready := prepared source settings.keys entropy verbosity
    let cycles := ready.frameCycles settings.cycles
    let painted (count : Nat) := (List.range count).filter fun number =>
      (cycles number).any Moment.paints
    let shown (count : Nat) : List Entry :=
      .machine (.programLoaded program.length) :: roundEntries ready settings.cycles 0 count
    let report := run settings verbosity file entropy (.opened source)
    ((∀ number < settings.frames, ∀ moment ∈ cycles number, moment.completes = true) →
      let all := (List.range settings.frames).flatMap cycles
      let machine := (ready.after (Call.rounds settings.cycles settings.frames)).machine
      let draws := all.countP Moment.paints
      let stops := all.countP Moment.expires
      let entries := shown settings.frames ++ [.summary settings draws stops machine.counter]
      report =
          { exit := 0
            output := if settings.dump then machine.panel.screen.lines else []
            log := entries.map Entry.line } ∧
        all.length = settings.frames * settings.cycles ∧
        entries.filterMap Entry.frame? = painted settings.frames ∧
        entries.filterMap Entry.summary? = [(draws, stops, machine.counter)] ∧
        entries.countP Entry.stops = stops) ∧
      ∀ number < settings.frames,
        (∀ earlier < number, ∀ moment ∈ cycles earlier, moment.completes = true) →
        ∀ moment ∈ cycles number, moment.completes = false →
          ∃ failure, moment.response.reply = .failed failure ∧
            let entries := shown number ++ (cycles number).flatMap Moment.entries ++
              (Problem.failed failure).entries.filter fun entry => verbosity.keeps entry.level
            report =
                { exit := 1
                  output := []
                  log := entries.map Entry.line } ∧
              entries.filterMap Entry.frame? = painted number ∧
              entries.filterMap Entry.summary? = [] ∧
              entries.filterMap Entry.error? = failure.message :: failure.causes := by
  intro ready cycles painted shown report
  obtain ⟨watched, unchanged⟩ : ready.Watched ∧ ready.machine.panel.changed = false :=
    watched_prepared source settings.keys entropy verbose
  let fresh := Session.fresh entropy verbosity
  let outcome := Session.play
    { emulator := ready
      draws := 0
      stops := 0
      entries := [.machine (.programLoaded program.length)] } settings
  have verboseFresh : fresh.emulator.verbosity.keeps .debug = true := verbose
  have reported : report = .ofSession settings verbosity outcome.1 outcome.2 := by
    have opened := run_opened settings verbosity file entropy source
    rw [run_of_fits arrived fits verboseFresh settings file] at opened
    exact opened
  have level : ready.verbosity = verbosity := Emulator.verbosity_after _ _
  rw [← level] at reported
  clear_value ready report
  subst level
  refine ⟨?_, ?_⟩
  · intro complete all machine draws stops entries
    refine ⟨?_, length_roundCycles complete, ?_, ?_, ?_⟩
    · rw [reported]
      exact report_of_completes watched unchanged _ complete
    · rw [List.filterMap_append, List.filterMap_cons_none rfl, frames_roundEntries]
      exact List.append_nil _
    · rw [List.filterMap_append, List.filterMap_cons_none rfl,
        filterMap_roundEntries _ _ _ (fun _ => rfl) rfl fun _ => rfl]
      rfl
    · rw [List.countP_append, List.countP_cons_of_neg Bool.false_ne_true,
        countP_stops_roundEntries watched]
      rfl
  · intro number within complete moment member failed
    obtain ⟨failure, cause, reply⟩ := Emulator.reply_frame_of_mem member failed
    refine ⟨failure, cause, ?_⟩
    intro entries
    refine ⟨?_, ?_, ?_, ?_⟩
    · rw [reported]
      exact report_of_failed watched unchanged _ within complete reply
    · rw [List.filterMap_append, List.filterMap_append, List.filterMap_cons_none rfl,
        frames_roundEntries, filterMap_entries (fun _ => rfl) rfl,
        filterMap_failed (fun _ => rfl) (fun _ => rfl) rfl, List.append_nil, List.append_nil]
    · rw [filterMap_run _ _ _ (fun _ => rfl) rfl fun _ => rfl]
      exact filterMap_failed (fun _ => rfl) (fun _ => rfl) rfl failure _
    · rw [filterMap_run _ _ _ (fun _ => rfl) rfl fun _ => rfl]
      exact errors_failed verbose failure

/-- The first of two frames clears the screen, and the second jumps to itself. -/
theorem report_exact_clear_screen :
    let program : List UInt8 := [0x00, 0xE0, 0x12, 0x02]
    let source : Source := { chunks := [program], failure := none }
    let verbosity : Verbosity := some .debug
    let settings : Settings := { cycles := 1, frames := 2, keys := [], dump := false }
    let ready := prepared source settings.keys (.seeded 0) verbosity
    let report := run settings verbosity "clear" (.seeded 0) (.opened source)
    source.contents = .ok program ∧ program.length ≤ programCapacity ∧
      verbosity.keeps .debug = true ∧
      (∀ number < settings.frames, ∀ moment ∈ ready.frameCycles settings.cycles number,
        moment.completes = true) ∧
      report.exit = 0 ∧
      ∃ entries : List Entry, report.log = entries.map Entry.line ∧
        entries.filterMap Entry.frame? = [0] ∧
        entries.filterMap Entry.summary? = [(1, 0, 0x202)] := by
  intro program source verbosity settings ready report
  have arrived : source.contents = .ok program := rfl
  have fits : program.length ≤ programCapacity := by decide
  have verbose : verbosity.keeps .debug = true := rfl
  have complete : ∀ number < settings.frames,
      ∀ moment ∈ ready.frameCycles settings.cycles number, moment.completes = true := by
    decide +kernel
  have painted : ((List.range settings.frames).filter fun number =>
      (ready.frameCycles settings.cycles number).any Moment.paints) = [0] := by
    decide +kernel
  have counts : (((List.range settings.frames).flatMap
        (ready.frameCycles settings.cycles)).countP Moment.paints,
      ((List.range settings.frames).flatMap
        (ready.frameCycles settings.cycles)).countP Moment.expires,
      (ready.after (Call.rounds settings.cycles settings.frames)).machine.counter) =
        (1, 0, 0x202) := by
    decide +kernel
  obtain ⟨reported, _, frames, summary, _⟩ :=
    (report_exact arrived fits verbose settings "clear" (.seeded 0)).1 complete
  refine ⟨arrived, fits, verbose, complete, congrArg Report.exit reported, _,
    congrArg Report.log reported, frames.trans painted, summary.trans ?_⟩
  exact congrArg (fun counted => [counted]) counts

end Runner

end Chip8
