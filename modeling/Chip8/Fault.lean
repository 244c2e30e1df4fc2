import Chip8.Layout
import Chip8.Opcode

/-!
What can go wrong, as causes. A failure is a cause together with the activity that it
interrupted, where one is named; the texts of a failure run from the outside in.
-/

namespace Chip8

inductive Fault
  | addressOutOfBounds (address : Nat)
  | stackOverflow (frames : Nat)
  | stackUnderflow
  | programTooLarge (size : Nat)
  | invalidOpcode (opcode : Opcode)
  | unreadable (reason : String)
  deriving DecidableEq, Repr

def addressText (address : Nat) : String := "0x" ++ Numeral.hexText 3 address

def Fault.message : Fault → String
  | .addressOutOfBounds address => "address out of bounds: " ++ addressText address
  | .stackOverflow frames => s!"call stack overflow ({frames} frames)"
  | .stackUnderflow => "no subroutine to return from"
  | .programTooLarge size =>
      s!"input program is too large ({size} bytes, at most {programCapacity} allowed)"
  | .invalidOpcode opcode => "invalid opcode: " ++ opcode.text
  | .unreadable reason => reason

inductive Activity
  | fetching
  | executing (opcode : Opcode) (address : UInt16)
  | readingProgram
  deriving DecidableEq, Repr

def Activity.message : Activity → String
  | .fetching => "could not fetch next instruction"
  | .executing opcode address =>
      "error executing " ++ opcode.text ++ " at " ++ addressText address.toNat
  | .readingProgram => "could not read program data"

structure Failure where
  fault : Fault
  activity : Option Activity
  deriving DecidableEq, Repr

/-- A failure outside of every named activity. -/
def Fault.bare (fault : Fault) : Failure :=
  { fault := fault
    activity := none }

def Fault.during (activity : Activity) (fault : Fault) : Failure :=
  { fault := fault
    activity := some activity }

def Failure.message (failure : Failure) : String :=
  match failure.activity with
  | none => failure.fault.message
  | some activity => activity.message

def Failure.causes (failure : Failure) : List String :=
  match failure.activity with
  | none => []
  | some _ => [failure.fault.message]

end Chip8
