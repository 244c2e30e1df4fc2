import Chip8.Proofs.Painting

/-!
Refreshing a display. The mark on the panel remembers every painting until it is acknowledged, by
a display that accepts the screen, by the host or by a reset. A display that refuses the screen
acknowledges nothing, so it is offered the screen again.
-/

namespace Chip8

def Reply.accepts : Reply → Bool
  | .refreshed (.shown _) => true
  | _ => false

namespace Moment

/-- Whether the moment takes note of the screen as it is. -/
def acknowledges (moment : Moment) : Bool :=
  match moment.call with
  | .reset => true
  | .acknowledge => true
  | .refresh _ => moment.response.reply.accepts
  | _ => false

def untilAcknowledged (moments : List Moment) : List Moment :=
  moments.rdropWhile fun moment => !moment.acknowledges

def sinceAcknowledged (moments : List Moment) : List Moment :=
  moments.rtakeWhile fun moment => !moment.acknowledges

private theorem acknowledges_of_mem_since {moments : List Moment} {moment : Moment}
    (member : moment ∈ sinceAcknowledged moments) : moment.acknowledges = false := by
  have kept := List.mem_rtakeWhile_imp member
  rwa [Bool.not_eq_true'] at kept

end Moment

/-- The emulator right after the last acknowledgement, for which the start counts as well. -/
def Emulator.lastAcknowledged (start : Emulator) (moments : List Moment) : Emulator :=
  ((Moment.untilAcknowledged moments).getLast?.map Moment.after).getD start

/-! ### Refreshing -/

namespace Emulator

variable {emulator : Emulator} {present : Screen → Except String Unit}

theorem refresh_of_unchanged (unchanged : emulator.machine.panel.changed = false) :
    emulator.perform (.refresh present) =
      { emulator := emulator
        outputs := []
        reply := .refreshed .upToDate } := by
  simp only [perform, refresh, Panel.refresh_of_unchanged unchanged]

theorem refresh_of_error {reason : String} (changed : emulator.machine.panel.changed = true)
    (refused : present emulator.machine.panel.screen = .error reason) :
    emulator.perform (.refresh present) =
      { emulator := emulator
        outputs := []
        reply := .refreshed (.refused emulator.machine.panel.screen reason) } := by
  simp only [perform, refresh, Panel.refresh_of_error changed refused]

theorem refresh_of_ok (changed : emulator.machine.panel.changed = true)
    (accepted : present emulator.machine.panel.screen = .ok ()) :
    let panel := emulator.machine.panel.acknowledge
    emulator.perform (.refresh present) =
      { emulator := { emulator with machine := { emulator.machine with panel := panel } }
        outputs := []
        reply := .refreshed (.shown panel.screen) } := by
  simp only [perform, refresh, Panel.refresh_of_ok changed accepted]
  rfl

private theorem offered_refresh (emulator : Emulator) (present : Screen → Except String Unit) :
    ∃ result, (emulator.perform (.refresh present)).reply = .refreshed result ∧
      result.offered? =
        if emulator.machine.panel.changed then some emulator.machine.panel.screen else none :=
  ⟨_, rfl, emulator.machine.panel.offered_refresh present⟩

private theorem accepts_refresh_iff (emulator : Emulator) (present : Screen → Except String Unit) :
    (emulator.perform (.refresh present)).reply.accepts = true ↔
      emulator.machine.panel.changed = true ∧ present emulator.machine.panel.screen = .ok () := by
  cases changed : emulator.machine.panel.changed with
  | false =>
      rw [refresh_of_unchanged changed]
      simp only [Reply.accepts, Bool.false_eq_true, false_and]
  | true =>
      cases answer : present emulator.machine.panel.screen with
      | ok accepted =>
          rw [refresh_of_ok changed answer]
          simp only [Reply.accepts, and_self]
      | error reason =>
          rw [refresh_of_error changed answer]
          simp only [Reply.accepts, Bool.false_eq_true, reduceCtorEq, and_false]

private theorem changed_refresh (emulator : Emulator) (present : Screen → Except String Unit) :
    let response := emulator.perform (.refresh present)
    response.emulator.machine.panel.changed =
      (!response.reply.accepts && emulator.machine.panel.changed) := by
  intro response
  unfold response
  cases changed : emulator.machine.panel.changed with
  | false =>
      rw [refresh_of_unchanged changed]
      exact changed
  | true =>
      cases answer : present emulator.machine.panel.screen with
      | ok accepted =>
          rw [refresh_of_ok changed answer]
          rfl
      | error reason =>
          rw [refresh_of_error changed answer]
          exact changed

end Emulator

/-! ### One moment -/

namespace Moment

variable {moment : Moment} (full : moment.before.table = .standard)

include full

/-- A painting sets the mark, an acknowledgement takes it away, and nothing else touches it. -/
theorem changed_after (single : moment.call.Single) :
    moment.after.machine.panel.changed =
      (!moment.acknowledges && (moment.before.machine.panel.changed || moment.paints)) := by
  rcases single.cycle_or_idle with cycles | idle
  · have unacknowledged : moment.acknowledges = false := by rw [acknowledges, cycles]
    rw [unacknowledged, machine_after_of_cycle cycles, paints, completes_of_cycle cycles]
    cases painting full with
    | kept unpainted panel _ =>
        rw [unpainted, panel, Bool.or_false]
        rfl
    | painted busy changed _ =>
        rw [busy, changed, Bool.or_true]
        rfl
  · rw [paints_of_idle idle, Bool.or_false]
    obtain ⟨before, call⟩ := moment
    cases call with
    | cycle => cases idle
    | frame count => cases idle
    | reset => rfl
    | acknowledge => rfl
    | load program =>
        exact before.machine.view_load (fun machine => machine.panel.changed) (fun _ _ _ => rfl)
          program
    | loadFrom source =>
        exact before.machine.view_loadFrom (fun machine => machine.panel.changed)
          (fun _ _ _ => rfl) source
    | refresh present => exact before.changed_refresh present
    | _ => rfl

end Moment

/-! ### Runs -/

namespace Emulator

variable {start final : Emulator} {moments : List Moment}

/-- Without an acknowledgement, the mark remembers every painting. -/
theorem Run.changed (run : Run start moments final) (full : start.table = .standard)
    (unacknowledged : ∀ moment ∈ moments, moment.acknowledges = false) :
    final.machine.panel.changed =
      (start.machine.panel.changed || moments.any Moment.paints) := by
  induction run with
  | nil emulator => exact (Bool.or_false _).symm
  | cons moment single later inductionHypothesis =>
      obtain ⟨here, onward⟩ := List.forall_mem_cons.mp unacknowledged
      rw [inductionHypothesis (moment.table_after.trans full) onward,
        moment.changed_after full single, here, List.any_cons, Bool.not_false, Bool.true_and,
        Bool.or_assoc]

private theorem Run.screen_of_unpainted (run : Run start moments final)
    (full : start.table = .standard)
    (unacknowledged : ∀ moment ∈ moments, moment.acknowledges = false)
    (unpainted : moments.any Moment.paints = false) :
    final.machine.panel.screen = start.machine.panel.screen := by
  have kept : ∀ moment ∈ moments, moment.call ≠ .reset := by
    intro moment member resets
    have unacknowledged := unacknowledged moment member
    rw [Moment.acknowledges, resets] at unacknowledged
    cases unacknowledged
  have idle : moments.filter Moment.paints = [] :=
    List.filter_eq_nil_iff.mpr (List.any_eq_false.mp unpainted)
  rw [run.screen full kept, idle]
  rfl

/-- A run goes on from its last acknowledgement, where the mark is not set. -/
theorem Run.sinceAcknowledged (run : Run start moments final) (full : start.table = .standard)
    (unmarked : start.machine.panel.changed = false) :
    let between := start.lastAcknowledged moments
    Run between (Moment.sinceAcknowledged moments) final ∧ between.table = .standard ∧
      between.machine.panel.changed = false := by
  intro between
  refine ⟨run.sinceMarked Moment.acknowledges, ?_⟩
  have origin : between = start ∨
      ∃ moment ∈ moments, moment.acknowledges = true ∧ between = moment.after :=
    start.lastMarked_eq Moment.acknowledges moments
  rcases origin with began | ⟨moment, member, acknowledged, ended⟩
  · rw [began]
    exact ⟨full, unmarked⟩
  · have standard := (run.table.1 moment member).trans full
    rw [ended, moment.changed_after standard (run.single moment member), acknowledged]
    exact ⟨moment.table_after.trans standard, rfl⟩

/-- From power-up on, the mark on the panel is set exactly if something was painted since the last
acknowledgement, and otherwise the screen is still the one acknowledged. A display is called exactly
if the mark is set. Where it refuses the screen nothing changes, and the next one is offered the
screen as it then is. -/
theorem mark_remembers_painting (entropy : Entropy) (verbosity : Verbosity) (calls : List Call) :
    let start := unobserved .standard entropy verbosity
    let moments := start.history calls
    let reached := start.after calls
    let panel := reached.machine.panel
    panel.changed = (Moment.sinceAcknowledged moments).any Moment.paints ∧
      (panel.changed = false →
        panel.screen = (start.lastAcknowledged moments).machine.panel.screen) ∧
      ∀ present : Screen → Except String Unit,
        let response := reached.perform (.refresh present)
        response.emulator.machine.panel.screen = panel.screen ∧
          (∃ result, response.reply = .refreshed result ∧
            result.offered? = if panel.changed then some panel.screen else none) ∧
          (response.reply.accepts = true ↔
            panel.changed = true ∧ present panel.screen = .ok ()) ∧
          ∀ reason, panel.changed = true → present panel.screen = .error reason →
            response.reply = .refreshed (.refused panel.screen reason) ∧
              response.emulator = reached ∧
              ∀ (further : List Call) (again : Screen → Except String Unit),
                (∀ moment ∈ reached.history further, moment.acknowledges = false) →
                let later := reached.after further
                ∃ result, (later.perform (.refresh again)).reply = .refreshed result ∧
                  result.offered? = some later.machine.panel.screen := by
  intro start moments reached panel
  have full : start.table = .standard := rfl
  have run : Run start moments reached := start.run_history calls
  obtain ⟨since, standard, unmarked⟩ := run.sinceAcknowledged full rfl
  have unacknowledged : ∀ moment ∈ Moment.sinceAcknowledged moments,
      moment.acknowledges = false :=
    fun moment => Moment.acknowledges_of_mem_since
  have changed : panel.changed = (Moment.sinceAcknowledged moments).any Moment.paints := by
    have remembered := since.changed standard unacknowledged
    rw [unmarked, Bool.false_or] at remembered
    exact remembered
  refine ⟨changed, ?_, ?_⟩
  · intro unchanged
    rw [changed] at unchanged
    exact since.screen_of_unpainted standard unacknowledged unchanged
  · intro present response
    refine ⟨panel.screen_refresh present, reached.offered_refresh present,
      reached.accepts_refresh_iff present, ?_⟩
    intro reason marked refused
    have answer : response = _ := refresh_of_error marked refused
    refine ⟨congrArg Response.reply answer, congrArg Response.emulator answer, ?_⟩
    intro further again pending later
    have onward := (reached.run_history further).changed (run.table.2.trans full) pending
    have still : later.machine.panel.changed = true := by
      rw [onward]
      exact Bool.or_eq_true_iff.mpr (.inl marked)
    obtain ⟨result, given, offered⟩ := later.offered_refresh again
    rw [if_pos still] at offered
    exact ⟨result, given, offered⟩

end Emulator

end Chip8
