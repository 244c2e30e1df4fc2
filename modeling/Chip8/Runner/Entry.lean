import Chip8.Fault
import Chip8.Machine.Notice
import Chip8.Runner.Settings

/-!
The lines that a run writes: notices of the machine among lines of its own, and the texts
of a problem that ends it.
-/

namespace Chip8.Runner

inductive Entry
  | machine (notice : Notice)
  | buzzerStopped
  | displayChanged (frame : Nat)
  | summary (settings : Settings) (draws stops : Nat) (counter : UInt16)
  | problem (text : String)
  | cause (text : String)
  | backtrace

namespace Entry

def level : Entry → Level
  | .machine notice => notice.level
  | .buzzerStopped => .debug
  | .displayChanged _ => .debug
  | .summary _ _ _ _ => .info
  | .problem _ => .error
  | .cause _ => .info
  | .backtrace => .trace

def summaryText (frames cycles draws stops : Nat) (counter : UInt16) : String :=
  s!"ran {frames} frames of {cycles} cycles: {draws} draws, {stops} buzzer stops, pc = " ++
    addressText counter.toNat

def text : Entry → String
  | .machine notice => notice.text
  | .buzzerStopped => "buzzer stopped"
  | .displayChanged frame => s!"frame {frame}: display changed"
  | .summary settings draws stops counter =>
      summaryText settings.frames settings.cycles draws stops counter
  | .problem text => text
  | .cause text => "caused by: " ++ text
  | .backtrace => "backtrace: "

def line (entry : Entry) : String := entry.level.label ++ ": " ++ entry.text

end Entry

inductive Problem
  | setting (fault : SettingFault)
  | cannotOpen (file reason : String)
  | cannotLoad (file : String) (failure : Failure)
  | failed (failure : Failure)

def Problem.texts : Problem → List String
  | .setting fault => fault.texts
  | .cannotOpen file reason => ["could not open file '" ++ file ++ "'", reason]
  | .cannotLoad file failure =>
      ("could not load program from file '" ++ file ++ "'") :: failure.message :: failure.causes
  | .failed failure => failure.message :: failure.causes

/-- The outermost text is the problem itself, the others are its causes. -/
def Problem.entries (problem : Problem) : List Entry :=
  match problem.texts with
  | [] => [.backtrace]
  | text :: causes => .problem text :: causes.map .cause ++ [.backtrace]

end Chip8.Runner
