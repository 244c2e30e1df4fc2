import Chip8.Runner.Session
import Chip8.Screen.Text

/-!
From the words of a command line to the texts and the exit status that answer them. A plan
is made before any file is touched, and completed with what opening the file gave.
-/

namespace Chip8.Runner

/-- Every text is written with a line break after it. A text can hold line breaks of its own,
since names and values are quoted as they stand. -/
structure Report where
  exit : Nat
  output : List String
  log : List String
  deriving DecidableEq, Repr

inductive Opening
  | refused (reason : String)
  | opened (source : Source)

inductive Plan
  | usageError
  | answer (report : Report)
  | run (settings : Settings) (verbosity : Verbosity) (file : String)

def versionText : String := "chip8vm 0.1.0"

def helpTexts : List String :=
  [versionText,
    "Runs a CHIP-8 program without a display",
    "",
    "USAGE:",
    "    chip8vm [FLAGS] [OPTIONS] <FILE>",
    "",
    "FLAGS:",
    "    -d, --dump       print the display when done",
    "    -h, --help       show this help message and exit",
    "    -V, --version    show version information and exit",
    "    -v, --verbose    increase verbosity",
    "",
    "OPTIONS:",
    "    -c, --cycles <N>      set the number of cycles per frame",
    "    -f, --frames <N>      set the number of frames to run",
    "    -k, --key <KEY>...    hold down the given hex key (0-F)",
    "",
    "ARGS:",
    "    <FILE>    set the program file to run"]

def verbosityOfCount : Nat → Verbosity
  | 0 => some .warning
  | 1 => some .info
  | 2 => some .debug
  | _ => some .trace

def Report.ofAnswer (lines : List String) : Report :=
  { exit := 0
    output := lines
    log := [] }

def Report.ofProblem (verbosity : Verbosity) (earlier : List Entry) (problem : Problem) :
    Report :=
  { exit := 1
    output := []
    log := (earlier ++ problem.entries.filter fun entry => verbosity.keeps entry.level).map
      Entry.line }

def Request.plan (request : Request) : Plan :=
  let verbosity := verbosityOfCount request.verbosity
  match request.settings with
  | .error fault => .answer (.ofProblem verbosity [] (.setting fault))
  | .ok settings => .run settings verbosity request.file

def plan (words : List String) : Plan :=
  match Invocation.ofWords words with
  | .refused => .usageError
  | .help => .answer (.ofAnswer helpTexts)
  | .version => .answer (.ofAnswer [versionText])
  | .run request => request.plan

def run (settings : Settings) (verbosity : Verbosity) (file : String) (entropy : Entropy)
    (opening : Opening) : Report :=
  match opening with
  | .refused reason => .ofProblem verbosity [] (.cannotOpen file reason)
  | .opened source =>
      let start := Session.ofEmulator (Emulator.unobserved .standard entropy verbosity)
      match start.run settings file source with
      | (ended, some problem) => .ofProblem verbosity ended.entries.reverse problem
      | (ended, none) =>
          { exit := 0
            output := if settings.dump then ended.emulator.machine.panel.screen.lines else []
            log := ended.entries.reverse.map Entry.line }

end Chip8.Runner
