import Chip8.Emulator.Call
import Chip8.Runner.Entry

/-!
A run without a display: a number of frames with some keys held down. The session counts
what the observers see and collects the lines that the verbosity keeps.
-/

namespace Chip8.Runner

structure Session where
  emulator : Emulator
  draws : Nat
  stops : Nat
  /-- The lines so far, latest first. -/
  entries : List Entry

namespace Session

def ofEmulator (emulator : Emulator) : Session :=
  { emulator := emulator
    draws := 0
    stops := 0
    entries := [] }

def record (session : Session) (entry : Entry) : Session :=
  if session.emulator.verbosity.keeps entry.level then
    { session with entries := entry :: session.entries }
  else session

def observe (session : Session) : Output → Session
  | .line notice => session.record (.machine notice)
  | .drawn _ _ _ _ => { session with draws := session.draws + 1 }
  | .buzzed _ =>
      let recorded := session.record .buzzerStopped
      { recorded with stops := recorded.stops + 1 }

def absorb (session : Session) (response : Response) : Session :=
  response.outputs.foldl observe { session with emulator := response.emulator }

def call (session : Session) (call : Call) : Session × Reply :=
  let response := session.emulator.perform call
  (session.absorb response, response.reply)

def review (session : Session) (number : Nat) : Session :=
  if session.emulator.machine.panel.changed then
    ((session.record (.displayChanged number)).call .acknowledge).1
  else session

def frames (cycles : Nat) : Nat → Nat → Session → Session × Option Failure
  | 0, _, session => (session, none)
  | remaining + 1, number, session =>
      match session.call (.frame cycles) with
      | (ended, .failed failure) => (ended, some failure)
      | (ended, _) => frames cycles remaining (number + 1) (ended.review number)

/-- Observers are installed and keys pressed once the program is in place. -/
def ready (session : Session) (keys : List Key) : Session :=
  let watched := ((session.call (.observeScreen (some "display"))).1.call
    (.observeBuzzer (some "buzzer"))).1
  keys.foldl (fun session key => (session.call (.setKey key.val true)).1) watched

def run (settings : Settings) (file : String) (source : Source) (session : Session) :
    Session × Option Problem :=
  match session.call (.loadFrom source) with
  | (ended, .failed failure) => (ended, some (.cannotLoad file failure))
  | (loaded, _) =>
      match frames settings.cycles settings.frames 0 (loaded.ready settings.keys) with
      | (ended, some failure) => (ended, some (.failed failure))
      | (ended, none) =>
          (ended.record
            (.summary settings ended.draws ended.stops ended.emulator.machine.counter), none)

end Session

end Chip8.Runner
