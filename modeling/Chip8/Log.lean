/-!
Levels of log lines, and the limit up to which lines are kept.
-/

namespace Chip8

inductive Level
  | error
  | warning
  | info
  | debug
  | trace
  deriving DecidableEq, Repr

namespace Level

def rank : Level → Nat
  | .error => 1
  | .warning => 2
  | .info => 3
  | .debug => 4
  | .trace => 5

def label : Level → String
  | .error => "ERROR"
  | .warning => "WARN"
  | .info => "INFO"
  | .debug => "DEBUG"
  | .trace => "TRACE"

end Level

/-- The least severe level that is kept; nothing is kept without one. -/
abbrev Verbosity := Option Level

def Verbosity.keeps : Verbosity → Level → Bool
  | none, _ => false
  | some limit, level => level.rank ≤ limit.rank

end Chip8
