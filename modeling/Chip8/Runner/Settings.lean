import Chip8.Keypad
import Chip8.Numeral.Unsigned
import Chip8.Runner.Invocation

/-!
The settings of a run, read from their texts: the cycles first, then the frames, then the
keys in order. The first text that cannot be read is the one reported.
-/

namespace Chip8.Runner

structure Settings where
  cycles : Nat
  frames : Nat
  keys : List Key
  dump : Bool
  deriving DecidableEq, Repr

inductive SettingFault
  | cycles (fault : Numeral.UnsignedFault)
  | frames (fault : Numeral.UnsignedFault)
  | key (text : String) (fault : Numeral.UnsignedFault)
  | keyOutOfRange (text : String)
  deriving DecidableEq, Repr

def SettingFault.texts : SettingFault → List String
  | .cycles fault => ["invalid cycles argument", fault.message]
  | .frames fault => ["invalid frames argument", fault.message]
  | .key text fault => ["invalid key '" ++ text ++ "'", fault.message]
  | .keyOutOfRange text => ["key '" ++ text ++ "' is out of range"]

namespace Settings

def defaultCycles : Nat := 10

def defaultFrames : Nat := 60

def readCount (default : Nat) : Option String → Except Numeral.UnsignedFault Nat
  | none => .ok default
  | some text => Numeral.unsigned 10 text

def readKey (text : String) : Except SettingFault Key :=
  match Numeral.unsigned 16 text with
  | .error fault => .error (.key text fault)
  | .ok index =>
      match Key.ofIndex? index with
      | none => .error (.keyOutOfRange text)
      | some key => .ok key

def readKeys : List String → Except SettingFault (List Key)
  | [] => .ok []
  | text :: rest =>
      match readKey text with
      | .error fault => .error fault
      | .ok first =>
          match readKeys rest with
          | .error fault => .error fault
          | .ok others => .ok (first :: others)

def ofTexts (cycles frames : Option String) (keyTexts : List String) (dump : Bool) :
    Except SettingFault Settings :=
  match readCount defaultCycles cycles with
  | .error fault => .error (.cycles fault)
  | .ok cycles =>
      match readCount defaultFrames frames with
      | .error fault => .error (.frames fault)
      | .ok frames =>
          match readKeys keyTexts with
          | .error fault => .error fault
          | .ok keys =>
              .ok
                { cycles := cycles
                  frames := frames
                  keys := keys
                  dump := dump }

end Settings

def Request.settings (request : Request) : Except SettingFault Settings :=
  Settings.ofTexts request.cycles request.frames request.keys request.dump

end Chip8.Runner
