import Chip8.Proofs.Timers

/-!
The end of a sound. The observer of the buzzer is told exactly where the tick of a cycle takes the
sound timer from one to zero, and every such expiry uses up a load of the timer.
-/

namespace Chip8

namespace Moment

/-- The machine right before the moment lets it tick, if the moment gets so far. -/
def beforeTick? (moment : Moment) : Option Machine :=
  match moment.call with
  | .cycle => moment.before.machine.beforeTick? moment.before.table
  | _ => none

def expires (moment : Moment) : Bool :=
  match moment.beforeTick? with
  | some ready => ready.sound.value == 1 && moment.after.machine.sound.value == 0
  | none => false

def loads (moment : Moment) : Bool :=
  match moment.call with
  | .setSound value => 0 < value
  | .cycle =>
      match moment.before.machine.source? .sound with
      | some x => 0 < moment.before.machine.register x
      | none => false
  | _ => false

/-! ### One moment -/

private theorem expires_of_idle {moment : Moment} (idle : moment.call.runs = false) :
    moment.expires = false := by
  have unready : moment.beforeTick? = none := by
    rw [beforeTick?]
    split
    · next cycles =>
        rw [cycles] at idle
        cases idle
    · rfl
  rw [expires, unready]

variable {moment : Moment}

private theorem expires_of_missed (cycles : moment.call = .cycle)
    (unready : moment.before.machine.beforeTick? moment.before.table = none) :
    moment.expires = false := by
  rw [expires, beforeTick?, cycles]
  simp only [unready]

private theorem expires_of_ticked {ready : Machine} (cycles : moment.call = .cycle)
    (reached : moment.before.machine.beforeTick? moment.before.table = some ready)
    (ticked : (moment.before.machine.cycle moment.before.table).machine.sound =
      ready.sound.tick.1) :
    moment.expires = (ready.sound.value == 1) := by
  rw [expires, beforeTick?, machine_after_of_cycle cycles, cycles]
  simp only [reached, ticked]
  by_cases last : ready.sound.value = 1
  · have zero : ready.sound.tick.1.value = 0 := by
      apply UInt8.toNat_inj.mp
      rw [Countdown.toNat_tick, last]
      rfl
    rw [last, zero]
    rfl
  · rw [beq_false_of_ne last, Bool.false_and]

private theorem stopped_of_expires (expires : moment.expires = true) :
    moment.after.machine.sound.value = 0 := by
  rw [Moment.expires] at expires
  split at expires
  · exact eq_of_beq (Bool.and_eq_true_iff.mp expires).2
  · cases expires

private theorem loads_of_wound (cycles : moment.call = .cycle)
    (running : (moment.before.machine.woundClock .sound).value ≠ 0) :
    moment.before.machine.sound.value ≠ 0 ∨ moment.loads = true := by
  rw [loads, cycles]
  rw [Machine.woundClock] at running
  cases source : moment.before.machine.source? .sound with
  | none =>
      rw [source] at running
      exact .inl running
  | some x =>
      rw [source] at running
      exact .inr (decide_eq_true (UInt8.pos_iff_ne_zero.mpr running))

private theorem loads_of_idle (idle : moment.call.runs = false)
    (running : moment.after.machine.sound.value ≠ 0) :
    moment.before.machine.sound.value ≠ 0 ∨ moment.loads = true := by
  cases unset : moment.call.sets .sound with
  | false =>
      have kept := congrArg Countdown.value (moment.before.clock_perform idle unset)
      exact .inl fun stopped => running (kept.trans stopped)
  | true =>
      obtain ⟨before, call⟩ := moment
      cases call with
      | reset => exact absurd rfl running
      | setSound value => exact .inr (decide_eq_true (UInt8.pos_iff_ne_zero.mpr running))
      | _ => cases unset

variable (full : moment.before.table = .standard)

include full

private theorem expires_of_cycle (cycles : moment.call = .cycle) :
    (moment.before.machine.cycle moment.before.table).signals.filter Signal.stops =
      if moment.expires then [.buzzerStopped] else [] := by
  cases beat full with
  | missed _ unready _ silent =>
      rw [silent, expires_of_missed cycles unready]
      rfl
  | ticked ready _ reached _ clocks stops =>
      rw [stops, expires_of_ticked cycles reached (clocks .sound)]

/-- The observer of the buzzer is told of an expiry once, and of nothing else. -/
theorem buzzed_response (single : moment.call.Single) :
    moment.response.outputs.filterMap Output.buzzed? =
      if moment.expires then moment.before.buzzerObserver.toList else [] := by
  rcases single.cycle_or_idle with cycles | idle
  · have sent := moment.before.filterMap_buzzed_deliver
      (moment.before.machine.cycle moment.before.table).signals
    rw [expires_of_cycle full cycles] at sent
    rw [response_of_cycle cycles]
    refine sent.trans ?_
    split
    · cases moment.before.buzzerObserver <;> rfl
    · rfl
  · rw [expires_of_idle idle]
    apply List.filterMap_eq_nil_iff.mpr
    intro output member
    obtain ⟨notice, same⟩ := moment.before.lines_perform idle output member
    rw [same]
    rfl

private theorem completes_of_expires (single : moment.call.Single)
    (expires : moment.expires = true) :
    moment.completes = true := by
  rcases single.cycle_or_idle with cycles | idle
  · rw [completes_of_cycle cycles]
    cases beat full with
    | missed _ unready _ _ =>
        rw [expires_of_missed cycles unready] at expires
        cases expires
    | ticked _ completes _ _ _ _ => exact completes
  · rw [expires_of_idle idle] at expires
    cases expires

private theorem expires_of_unset (single : moment.call.Single)
    (unset : moment.sets .sound = false) :
    moment.expires = (moment.completes && moment.before.machine.sound.value == 1) := by
  rcases single.cycle_or_idle with cycles | idle
  · rw [sets, cycles] at unset
    rw [completes_of_cycle cycles]
    cases beat full with
    | missed failed unready _ _ => rw [expires_of_missed cycles unready, failed, Bool.false_and]
    | ticked ready completes reached wound clocks _ =>
        have kept : ready.sound = moment.before.machine.sound :=
          (wound .sound).trans (Machine.woundClock_of_unset unset)
        rw [expires_of_ticked cycles reached (clocks .sound), completes, kept, Bool.true_and]
  · rw [expires_of_idle idle, completes_of_idle idle, Bool.false_and]

/-- A sound timer that runs, or did so until it expired, ran before or was loaded. -/
theorem running_or_loads (single : moment.call.Single)
    (running : moment.expires = true ∨ moment.after.machine.sound.value ≠ 0) :
    moment.before.machine.sound.value ≠ 0 ∨ moment.loads = true := by
  rcases single.cycle_or_idle with cycles | idle
  · cases beat full with
    | missed _ unready clocks _ =>
        rw [expires_of_missed cycles unready, machine_after_of_cycle cycles] at running
        have kept := congrArg Countdown.value (clocks .sound)
        rcases running with expires | running
        · cases expires
        · exact .inl fun stopped => running (kept.trans stopped)
    | ticked ready _ reached wound clocks _ =>
        have left : ready.sound = moment.before.machine.woundClock .sound := wound .sound
        have ticked : (moment.before.machine.cycle moment.before.table).machine.sound =
            ready.sound.tick.1 := clocks .sound
        apply loads_of_wound cycles
        rw [← left]
        intro stopped
        rcases running with expires | running
        · rw [expires_of_ticked cycles reached ticked, stopped] at expires
          cases expires
        · rw [machine_after_of_cycle cycles, ticked, Countdown.tick_of_stopped stopped] at running
          exact running stopped
  · rw [expires_of_idle idle] at running
    rcases running with expires | running
    · cases expires
    · exact loads_of_idle idle running

end Moment

/-! ### Loads and expiries -/

inductive SoundEvent
  | loaded
  | expired
  deriving DecidableEq, Repr

/-- What happens to the sound timer in a moment. The tick comes last. -/
def Moment.soundEvents (moment : Moment) : List SoundEvent :=
  (if moment.loads then [.loaded] else []) ++ if moment.expires then [.expired] else []

namespace SoundEvent

/-- Whether every expiry uses up a load of its own. The mark tells of a load that is still unused
when the events begin. -/
def Paid : Bool → List SoundEvent → Prop
  | _, [] => True
  | _, .loaded :: rest => Paid true rest
  | unused, .expired :: rest => unused = true ∧ Paid false rest

/-- In front of an expiry there is a load, and no other expiry comes in between. -/
theorem exists_loaded_of_paid {unused : Bool} {earlier later : List SoundEvent}
    (paid : Paid unused (earlier ++ .expired :: later)) :
    (unused = true ∧ expired ∉ earlier) ∨
      ∃ front between, earlier = front ++ loaded :: between ∧ expired ∉ between := by
  induction earlier generalizing unused with
  | nil => exact .inl ⟨paid.1, List.not_mem_nil⟩
  | cons event rest inductionHypothesis =>
      cases event with
      | loaded =>
          rcases inductionHypothesis paid with ⟨_, unexpired⟩ | ⟨front, between, same, unexpired⟩
          · exact .inr ⟨[], rest, rfl, unexpired⟩
          · exact .inr ⟨.loaded :: front, between, by rw [same]; rfl, unexpired⟩
      | expired =>
          rcases inductionHypothesis paid.2 with ⟨used, _⟩ | ⟨front, between, same, unexpired⟩
          · cases used
          · exact .inr ⟨.expired :: front, between, by rw [same]; rfl, unexpired⟩

private theorem count_of_paid {unused : Bool} {events : List SoundEvent}
    (paid : Paid unused events) :
    events.count expired ≤ events.count loaded + unused.toNat := by
  induction events generalizing unused with
  | nil => exact Nat.zero_le _
  | cons event rest inductionHypothesis =>
      cases event with
      | loaded =>
          have bound := inductionHypothesis paid
          rw [Bool.toNat_true] at bound
          rw [List.count_cons_self, List.count_cons_of_ne (by decide)]
          omega
      | expired =>
          obtain ⟨unspent, onward⟩ := paid
          have bound := inductionHypothesis onward
          rw [Bool.toNat_false] at bound
          rw [unspent, Bool.toNat_true, List.count_cons_self, List.count_cons_of_ne (by decide)]
          omega

end SoundEvent

/-! ### Runs -/

namespace Emulator

variable {start final : Emulator} {moments : List Moment}

theorem Run.buzzed (run : Run start moments final) (full : start.table = .standard) :
    (moments.flatMap fun moment => moment.response.outputs).filterMap Output.buzzed? =
      (moments.filter Moment.expires).filterMap fun moment => moment.before.buzzerObserver := by
  rw [List.filterMap_flatMap, ← flatMap_toList]
  apply List.flatMap_congr
  intro moment member
  exact moment.buzzed_response ((run.table.1 moment member).trans full)
    (run.single moment member)

/-- The invariant is that a running sound timer stands for a load that is still unused. -/
theorem Run.paid (run : Run start moments final) (full : start.table = .standard) {unused : Bool}
    (charged : start.machine.sound.value ≠ 0 → unused = true) :
    SoundEvent.Paid unused (moments.flatMap Moment.soundEvents) := by
  induction run generalizing unused with
  | nil emulator => trivial
  | cons moment single later inductionHypothesis =>
      have next := moment.table_after.trans full
      rw [List.flatMap_cons, Moment.soundEvents]
      have origin := moment.running_or_loads full single
      cases loads : moment.loads with
      | true =>
          cases expires : moment.expires with
          | true =>
              -- The expiry uses up the load of the same moment and leaves the timer at zero.
              have stopped := Moment.stopped_of_expires expires
              exact ⟨rfl, inductionHypothesis next (absurd stopped)⟩
          | false => exact inductionHypothesis next fun _ => rfl
      | false =>
          rw [loads] at origin
          cases expires : moment.expires with
          | true =>
              have stopped := Moment.stopped_of_expires expires
              have ran := (origin (.inl expires)).resolve_right Bool.false_ne_true
              exact ⟨charged ran, inductionHypothesis next (absurd stopped)⟩
          | false =>
              apply inductionHypothesis next
              intro running
              exact charged ((origin (.inr running)).resolve_right Bool.false_ne_true)

/-- A sound timer that nobody sets expires in the cycle that its value counts, and in no other. -/
theorem Run.expires_iff (run : Run start moments final) (full : start.table = .standard)
    (unset : ∀ moment ∈ moments, moment.sets .sound = false) {position : Nat} {moment : Moment}
    (there : (moments.filter Moment.completes)[position]? = some moment) :
    moment.expires = true ↔ position + 1 = start.machine.sound.value.toNat := by
  induction run generalizing position with
  | nil emulator => cases there
  | cons first single later inductionHypothesis =>
      obtain ⟨here, onward⟩ := List.forall_mem_cons.mp unset
      have next := first.table_after.trans full
      have clock := congrArg (fun timer => timer.value.toNat) (first.clock_after full single here)
      cases completes : first.completes with
      | false =>
          rw [List.filter_cons_of_neg (Bool.eq_false_iff.mp completes)] at there
          rw [completes] at clock
          rw [inductionHypothesis next onward there]
          exact Eq.congr_right clock
      | true =>
          rw [List.filter_cons_of_pos completes] at there
          rw [completes, if_pos rfl, Countdown.toNat_tick] at clock
          change first.after.machine.sound.value.toNat =
            first.before.machine.sound.value.toNat - 1 at clock
          cases position with
          | zero =>
              rw [← Option.some.inj there, first.expires_of_unset full single here, completes,
                Bool.true_and, beq_iff_eq, ← UInt8.toNat_inj]
              exact eq_comm
          | succ position =>
              rw [inductionHypothesis next onward there, clock]
              omega

private theorem Run.exists_expires_iff (run : Run start moments final)
    (full : start.table = .standard) (unset : ∀ moment ∈ moments, moment.sets .sound = false) :
    (∃ moment ∈ moments, moment.expires = true) ↔
      1 ≤ start.machine.sound.value.toNat ∧
        start.machine.sound.value.toNat ≤ (moments.filter Moment.completes).length := by
  constructor
  · rintro ⟨moment, member, expires⟩
    have completes := moment.completes_of_expires ((run.table.1 moment member).trans full)
      (run.single moment member) expires
    obtain ⟨position, there⟩ :=
      List.getElem?_of_mem (List.mem_filter.mpr ⟨member, completes⟩)
    obtain ⟨inside, _⟩ := List.getElem?_eq_some_iff.mp there
    have count := (run.expires_iff full unset there).mp expires
    omega
  · rintro ⟨positive, within⟩
    let position := start.machine.sound.value.toNat - 1
    have inside : position < (moments.filter Moment.completes).length := by omega
    have there := List.getElem?_eq_getElem inside
    refine ⟨_, List.mem_of_mem_filter (List.getElem_mem inside), ?_⟩
    exact (run.expires_iff full unset there).mpr (by omega)

/-- From power-up on, the observer of the buzzer is told of every expiry once and of nothing else,
and every expiry uses up a load of its own. Wherever nobody sets a timer, it counts down the cycles
that succeed, and the sound timer expires in the cycle that its value counts, if there are as many.
A cycle that fails leaves both timers as they were. -/
theorem timers_count_cycles (entropy : Entropy) (verbosity : Verbosity) (calls : List Call) :
    let start := unobserved .standard entropy verbosity
    let moments := start.history calls
    let events := moments.flatMap Moment.soundEvents
    (start.outputs calls).filterMap Output.buzzed? =
        ((moments.filter Moment.expires).filterMap fun moment => moment.before.buzzerObserver) ∧
      (∀ moment ∈ moments, moment.response.outputs.filterMap Output.buzzed? =
        if moment.expires then moment.before.buzzerObserver.toList else []) ∧
      (∀ earlier later, events = earlier ++ .expired :: later →
        ∃ front between, earlier = front ++ .loaded :: between ∧ .expired ∉ between) ∧
      events.count .expired ≤ events.count .loaded ∧
      ∀ (reached : Emulator) (further : List Call), reached.table = .standard →
        let onward := reached.history further
        let cycles := onward.filter Moment.completes
        let sound := reached.machine.sound.value.toNat
        (∀ clock, (∀ moment ∈ onward, moment.sets clock = false) →
          ((reached.after further).machine.clock clock).value.toNat =
            (reached.machine.clock clock).value.toNat - cycles.length) ∧
          ((∀ moment ∈ onward, moment.sets .sound = false) →
            (∀ position moment, cycles[position]? = some moment →
              (moment.expires = true ↔ position + 1 = sound)) ∧
            ((∃ moment ∈ onward, moment.expires = true) ↔ 1 ≤ sound ∧ sound ≤ cycles.length)) ∧
          ∀ moment ∈ onward, moment.call = .cycle → moment.completes = false →
            ∀ clock, moment.after.machine.clock clock = moment.before.machine.clock clock := by
  intro start moments events
  have run : Run start moments (start.after calls) := start.run_history calls
  have paid : SoundEvent.Paid false events := run.paid rfl (absurd rfl)
  refine ⟨?_, ?_, ?_, SoundEvent.count_of_paid paid, ?_⟩
  · rw [outputs_eq_flatMap]
    exact run.buzzed rfl
  · intro moment member
    exact moment.buzzed_response (run.table.1 moment member) (run.single moment member)
  · intro earlier later same
    rw [same] at paid
    rcases SoundEvent.exists_loaded_of_paid paid with ⟨impossible, _⟩ | loaded
    · cases impossible
    · exact loaded
  · intro reached further full onward cycles sound
    have later : Run reached onward (reached.after further) := reached.run_history further
    refine ⟨fun clock unset => later.clock full unset, ?_, ?_⟩
    · intro unset
      exact ⟨fun position moment there => later.expires_iff full unset there,
        later.exists_expires_iff full unset⟩
    · intro moment member cycles failed clock
      have standard := (later.table.1 moment member).trans full
      exact moment.clock_of_failure standard cycles failed clock

end Emulator

end Chip8
