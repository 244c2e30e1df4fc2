import Chip8.Emulator.Delivery
import Chip8.Runner.Report

/-!
What a session takes over from the outputs of its emulator: a count of the screens, a count of the
ends of a sound, and the lines that the verbosity keeps.
-/

namespace Chip8

def Reply.failure? : Reply → Option Failure
  | .failed failure => some failure
  | _ => none

theorem Emulator.failure?_act (emulator : Emulator) (action : Machine → Step Failure) :
    (emulator.act action).reply.failure? = (action emulator.machine).failure := by
  simp only [act]
  cases (action emulator.machine).failure <;> rfl

namespace Runner

/-- The line that an output adds to a run, if the verbosity keeps it. -/
def Entry.ofOutput? : Output → Option Entry
  | .line notice => some (.machine notice)
  | .drawn _ _ _ _ => none
  | .buzzed _ => some .buzzerStopped

namespace Session

variable (session : Session)

def tally (outputs : List Output) : Session :=
  { emulator := session.emulator
    draws := session.draws + (outputs.filter Output.draws).length
    stops := session.stops + (outputs.filterMap Output.buzzed?).length
    entries :=
      ((outputs.filterMap Entry.ofOutput?).filter fun entry =>
        session.emulator.verbosity.keeps entry.level).reverse ++ session.entries }

theorem tally_append (first second : List Output) :
    session.tally (first ++ second) = (session.tally first).tally second := by
  simp only [tally, List.filter_append, List.filterMap_append, List.length_append,
    List.reverse_append, List.append_assoc, Nat.add_assoc]

private theorem observe_eq_tally (output : Output) :
    session.observe output = session.tally [output] := by
  cases output with
  | line notice =>
      simp only [observe, record, tally, List.filterMap_cons, Entry.ofOutput?, List.filter_cons]
      split <;> rfl
  | drawn observer screen width height => rfl
  | buzzed observer =>
      simp only [observe, record, tally, List.filterMap_cons, Entry.ofOutput?, List.filter_cons]
      split <;> rfl

private theorem foldl_observe (outputs : List Output) :
    outputs.foldl observe session = session.tally outputs := by
  induction outputs generalizing session with
  | nil => rfl
  | cons output rest inductionHypothesis =>
      rw [List.foldl_cons, inductionHypothesis, observe_eq_tally]
      exact (session.tally_append [output] rest).symm

theorem absorb_eq_tally (response : Response) :
    session.absorb response =
      { session with emulator := response.emulator }.tally response.outputs :=
  foldl_observe _ response.outputs

/-! ### Frames and runs -/

theorem frames_succ (cycles remaining number : Nat) :
    frames cycles (remaining + 1) number session =
      match (session.call (.frame cycles)).2.failure? with
      | some failure => ((session.call (.frame cycles)).1, some failure)
      | none =>
          frames cycles remaining (number + 1)
            ((session.call (.frame cycles)).1.review number) := by
  rw [frames]
  cases reply : (session.call (.frame cycles)).2 with
  | failed failure => rw [← Prod.eta (session.call (.frame cycles)), reply]; rfl
  | _ => rw [← Prod.eta (session.call (.frame cycles)), reply]; rfl

/-- What is left of a run once the program is in place and the keys are pressed. -/
def play (settings : Settings) : Session × Option Problem :=
  let outcome := frames settings.cycles settings.frames 0 session
  match outcome.2 with
  | some failure => (outcome.1, some (.failed failure))
  | none =>
      (outcome.1.record
        (.summary settings outcome.1.draws outcome.1.stops outcome.1.emulator.machine.counter),
        none)

theorem run_eq (settings : Settings) (file : String) (source : Source) :
    session.run settings file source =
      match (session.call (.loadFrom source)).2.failure? with
      | some failure =>
          ((session.call (.loadFrom source)).1, some (.cannotLoad file failure))
      | none =>
          ((session.call (.loadFrom source)).1.ready settings.keys).play settings := by
  rw [run]
  cases reply : (session.call (.loadFrom source)).2 with
  | failed failure => rw [← Prod.eta (session.call (.loadFrom source)), reply]; rfl
  | _ =>
      rw [← Prod.eta (session.call (.loadFrom source)), reply]
      simp only [Reply.failure?, play]
      cases frames settings.cycles settings.frames 0 _ with
      | mk ended failure => cases failure <;> rfl

end Session

def Session.fresh (entropy : Entropy) (verbosity : Verbosity) : Session :=
  .ofEmulator (.unobserved .standard entropy verbosity)

def Report.ofSession (settings : Settings) (verbosity : Verbosity) (ended : Session) :
    Option Problem → Report
  | some problem => .ofProblem verbosity ended.entries.reverse problem
  | none =>
      { exit := 0
        output := if settings.dump then ended.emulator.machine.panel.screen.lines else []
        log := ended.entries.reverse.map Entry.line }

theorem run_opened (settings : Settings) (verbosity : Verbosity) (file : String)
    (entropy : Entropy) (source : Source) :
    run settings verbosity file entropy (.opened source) =
      let outcome := (Session.fresh entropy verbosity).run settings file source
      .ofSession settings verbosity outcome.1 outcome.2 := by
  simp only [run, Session.fresh]
  cases (Session.ofEmulator (.unobserved .standard entropy verbosity)).run settings file source with
  | mk ended problem => cases problem <;> rfl

end Runner

end Chip8
