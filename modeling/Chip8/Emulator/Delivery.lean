import Chip8.Emulator.History

/-!
Which observer receives what. Notices go to the log, screens to the observer of the screen, and the
end of a sound to the observer of the buzzer. Each receives its share of the signals in order.
-/

namespace Chip8

def Signal.notice? : Signal → Option Notice
  | .noticed notice => some notice
  | _ => none

def Signal.screen? : Signal → Option Screen
  | .redrawn screen => some screen
  | _ => none

def Signal.stops : Signal → Bool
  | .buzzerStopped => true
  | _ => false

def Output.notice? : Output → Option Notice
  | .line notice => some notice
  | _ => none

def Output.draws : Output → Bool
  | .drawn _ _ _ _ => true
  | _ => false

def Output.buzzed? : Output → Option String
  | .buzzed observer => some observer
  | _ => none

namespace Step

variable {ε : Type}

def notices (step : Step ε) : List Notice := step.signals.filterMap Signal.notice?

def screens (step : Step ε) : List Screen := step.signals.filterMap Signal.screen?

end Step

namespace Emulator

variable (emulator : Emulator) (signals : List Signal)

/-- Of the notices, the log keeps those that the verbosity keeps. -/
theorem filterMap_notice_deliver :
    (signals.filterMap emulator.deliver?).filterMap Output.notice? =
      (signals.filterMap Signal.notice?).filter fun notice =>
        emulator.verbosity.keeps notice.level := by
  rw [List.filterMap_filterMap, List.filter_filterMap]
  congr 1
  funext signal
  cases signal with
  | noticed notice =>
      simp only [deliver?, Signal.notice?, Option.filter_some]
      split <;> rfl
  | redrawn screen =>
      simp only [deliver?]
      cases emulator.screenObserver <;> rfl
  | buzzerStopped =>
      simp only [deliver?]
      cases emulator.buzzerObserver <;> rfl

theorem filter_draws_deliver :
    (signals.filterMap emulator.deliver?).filter Output.draws =
      (signals.filterMap Signal.screen?).filterMap fun screen =>
        emulator.screenObserver.map fun observer => .drawn observer screen 64 32 := by
  rw [List.filterMap_filterMap, List.filter_filterMap]
  congr 1
  funext signal
  cases signal with
  | noticed notice =>
      simp only [deliver?]
      split <;> rfl
  | redrawn screen =>
      simp only [deliver?, Signal.screen?, Option.bind_some]
      cases emulator.screenObserver <;> rfl
  | buzzerStopped =>
      simp only [deliver?]
      cases emulator.buzzerObserver <;> rfl

theorem filterMap_buzzed_deliver :
    (signals.filterMap emulator.deliver?).filterMap Output.buzzed? =
      (signals.filter Signal.stops).filterMap fun _ => emulator.buzzerObserver := by
  rw [List.filterMap_filterMap, List.filterMap_filter]
  congr 1
  funext signal
  cases signal with
  | noticed notice =>
      simp only [deliver?]
      split <;> rfl
  | redrawn screen =>
      simp only [deliver?]
      cases emulator.screenObserver <;> rfl
  | buzzerStopped =>
      simp only [deliver?]
      cases emulator.buzzerObserver <;> rfl

/-! ### Calls that do not let the machine run -/

theorem lines_act {emulator : Emulator} {action : Machine → Step Failure}
    (spoken : ∀ signal ∈ (action emulator.machine).signals,
      ∃ notice, signal = .noticed notice) :
    ∀ output ∈ (emulator.act action).outputs, ∃ notice, output = .line notice := by
  intro output member
  obtain ⟨signal, sent, delivered⟩ := List.mem_filterMap.mp member
  obtain ⟨notice, same⟩ := spoken signal sent
  rw [same, deliver?] at delivered
  split at delivered
  · exact ⟨notice, (Option.some.inj delivered).symm⟩
  · cases delivered

/-- As long as the machine does not run, nothing but the log receives anything. -/
theorem lines_perform {call : Call} (idle : call.runs = false) (emulator : Emulator) :
    ∀ output ∈ (emulator.perform call).outputs, ∃ notice, output = .line notice := by
  have loads (program : List UInt8) : ∀ signal ∈ (emulator.machine.load program).signals,
      ∃ notice, signal = .noticed notice := by
    intro signal sent
    rw [Machine.load] at sent
    split at sent
    · cases sent
    · exact ⟨_, List.mem_singleton.mp sent⟩
  cases call with
  | reset =>
      rw [perform]
      exact lines_act fun signal sent => ⟨.wasReset, List.mem_singleton.mp sent⟩
  | load program => exact lines_act (loads program)
  | loadFrom source =>
      rw [perform]
      apply lines_act
      rw [Machine.loadFrom]
      cases source.contents with
      | ok program => exact loads program
      | error failure => exact List.forall_mem_nil _
  | cycle => cases idle
  | frame count => cases idle
  | _ => exact List.forall_mem_nil _

end Emulator

end Chip8
