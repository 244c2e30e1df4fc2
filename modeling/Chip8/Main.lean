import Chip8.Runner.Report

/-!
The headless runner as a program.
-/

namespace Chip8

def describeFailure : IO.Error → String
  | .noFileOrDirectory _ code details => s!"{details} (os error {code})"
  | .inappropriateType _ code details => s!"{details} (os error {code})"
  | .permissionDenied _ code details => s!"{details} (os error {code})"
  | error => toString error

/-- An open file delivers its contents at once, or breaks off before the first byte. -/
def readProgram (handle : IO.FS.Handle) : IO Source := do
  try
    let bytes ← handle.readBinToEnd
    pure
      { chunks := [bytes.toList]
        failure := none }
  catch failure =>
    pure
      { chunks := []
        failure := some (describeFailure failure) }

def openProgram (file : String) : IO Runner.Opening := do
  try
    let handle ← IO.FS.Handle.mk file .read
    let source ← readProgram handle
    pure (.opened source)
  catch failure => pure (.refused (describeFailure failure))

def printReport (report : Runner.Report) : IO UInt32 := do
  report.log.forM IO.eprintln
  report.output.forM IO.println
  pure (UInt32.ofNat report.exit)

def freshEntropy : IO Entropy := do
  let bytes ← IO.getRandomBytes 8
  pure (.seeded (bytes.toList.foldl (fun seed byte => seed * 256 + byte.toUInt64) 0))

end Chip8

open Chip8 in
def main (words : List String) : IO UInt32 := do
  match Runner.plan words with
  | .usageError =>
      Runner.helpTexts.forM IO.eprintln
      pure 1
  | .answer report => printReport report
  | .run settings verbosity file =>
      let entropy ← freshEntropy
      let opening ← openProgram file
      printReport (Runner.run settings verbosity file entropy opening)
