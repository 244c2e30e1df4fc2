/-!
The command line. An option word starts with a dash; what follows an option that wants a
value is its value, unless it is an option word itself, and any other word is the program
file. After a bare double dash every word is taken as it stands.
-/

namespace Chip8.Runner

inductive Setting
  | cycles
  | frames
  | key
  deriving DecidableEq, Repr

inductive Switch
  | dump
  | verbose
  | help
  | version
  deriving DecidableEq, Repr

inductive Choice
  | setting (setting : Setting)
  | switch (switch : Switch)
  deriving DecidableEq, Repr

def Choice.ofLetter? : Char → Option Choice
  | 'c' => some (.setting .cycles)
  | 'f' => some (.setting .frames)
  | 'k' => some (.setting .key)
  | 'd' => some (.switch .dump)
  | 'v' => some (.switch .verbose)
  | 'h' => some (.switch .help)
  | 'V' => some (.switch .version)
  | _ => none

def Choice.ofName? : String → Option Choice
  | "cycles" => some (.setting .cycles)
  | "frames" => some (.setting .frames)
  | "key" => some (.setting .key)
  | "dump" => some (.switch .dump)
  | "verbose" => some (.switch .verbose)
  | "help" => some (.switch .help)
  | "version" => some (.switch .version)
  | _ => none

/-- How often an option that wants a value was named, and the values it got. -/
structure Usage where
  count : Nat
  values : List String
  deriving DecidableEq, Repr

namespace Usage

def none : Usage :=
  { count := 0
    values := [] }

def named (usage : Usage) : Usage := { usage with count := usage.count + 1 }

def given (usage : Usage) (value : String) : Usage :=
  { usage with values := usage.values ++ [value] }

/-- An option that was named has got a value at least once. -/
def Complete (usage : Usage) : Prop := usage.count = 0 ∨ usage.values ≠ []

instance (usage : Usage) : Decidable usage.Complete :=
  inferInstanceAs (Decidable (_ ∨ _))

end Usage

structure Scan where
  usage : Setting → Usage
  dumps : Nat
  verbosity : Nat
  file : Option String
  /-- The option whose value comes next. -/
  pending : Option Setting
  /-- Whether words are taken as they stand. -/
  literal : Bool

/-- Why reading ended before the last word. -/
inductive Halt
  | refused
  | help
  | version
  deriving DecidableEq, Repr

namespace Scan

def start : Scan :=
  { usage := fun _ => Usage.none
    dumps := 0
    verbosity := 0
    file := none
    pending := none
    literal := false }

def revise (scan : Scan) (setting : Setting) (change : Usage → Usage) : Scan :=
  { scan with
    usage := fun other =>
      if other = setting then change (scan.usage other) else scan.usage other }

/-- Equals signs in front of a value do not belong to it. -/
def valueText (characters : List Char) : String :=
  String.ofList (characters.dropWhile (· == '='))

def giveValue (scan : Scan) (setting : Setting) (value : String) : Scan :=
  { scan.revise setting (·.given value) with pending := none }

def nameSetting (scan : Scan) (setting : Setting) (value : Option String) : Scan :=
  let named := scan.revise setting Usage.named
  match value with
  | some value => named.giveValue setting value
  | none => { named with pending := some setting }

def flip (scan : Scan) : Switch → Except Halt Scan
  | .dump => .ok { scan with dumps := scan.dumps + 1, pending := none }
  | .verbose => .ok { scan with verbosity := scan.verbosity + 1, pending := none }
  | .help => .error .help
  | .version => .error .version

def takeFile (scan : Scan) (word : String) : Except Halt Scan :=
  match scan.file with
  | none => .ok { scan with file := some word }
  | some _ => .error .refused

/-- Reads an option by its full name. A value attached to a switch is ignored. -/
def readName (scan : Scan) (characters : List Char) : Except Halt Scan :=
  let name := String.ofList (characters.takeWhile (· != '='))
  let value :=
    match characters.dropWhile (· != '=') with
    | [] => none
    | _ :: value => some (valueText value)
  match Choice.ofName? name with
  | none => .error .refused
  | some (.setting setting) => .ok (scan.nameSetting setting value)
  | some (.switch switch) => scan.flip switch

/-- Reads options by their letters. The first that wants a value takes the rest. -/
def readLetters (scan : Scan) : List Char → Except Halt Scan
  | [] => .ok scan
  | letter :: rest =>
      match Choice.ofLetter? letter with
      | none => .error .refused
      | some (.setting setting) =>
          .ok (scan.nameSetting setting (if rest = [] then none else some (valueText rest)))
      | some (.switch switch) =>
          match scan.flip switch with
          | .ok flipped => flipped.readLetters rest
          | .error halt => .error halt

/-- A lone dash is a word like any other. -/
def readWord (scan : Scan) (word : String) : Except Halt Scan :=
  if scan.literal then scan.takeFile word
  else
    match word.toList with
    | ['-', '-'] => .ok { scan with literal := true }
    | '-' :: '-' :: characters => scan.readName (characters.dropWhile (· == '-'))
    | '-' :: letter :: letters => scan.readLetters (letter :: letters)
    | _ =>
        match scan.pending with
        | some setting => .ok (scan.giveValue setting word)
        | none => scan.takeFile word

def readWords (scan : Scan) : List String → Except Halt Scan
  | [] => .ok scan
  | word :: rest =>
      match scan.readWord word with
      | .ok next => next.readWords rest
      | .error halt => .error halt

end Scan

/-- A complete request to run a program, with the texts of its settings unread. -/
structure Request where
  file : String
  cycles : Option String
  frames : Option String
  keys : List String
  dump : Bool
  verbosity : Nat
  deriving DecidableEq, Repr

/-- A file is needed, every option needs its value, and only keys and the verbosity may be
given again. -/
def Scan.request? (scan : Scan) : Option Request :=
  match scan.file with
  | none => none
  | some file =>
      if (scan.usage .cycles).Complete ∧ (scan.usage .frames).Complete ∧
          (scan.usage .key).Complete ∧ (scan.usage .cycles).count ≤ 1 ∧
          (scan.usage .frames).count ≤ 1 ∧ scan.dumps ≤ 1 then
        some
          { file := file
            cycles := (scan.usage .cycles).values.head?
            frames := (scan.usage .frames).values.head?
            keys := (scan.usage .key).values
            dump := decide (0 < scan.dumps)
            verbosity := scan.verbosity }
      else none

inductive Invocation
  | refused
  | help
  | version
  | run (request : Request)
  deriving DecidableEq, Repr

def Invocation.ofWords (words : List String) : Invocation :=
  match Scan.start.readWords words with
  | .error .refused => .refused
  | .error .help => .help
  | .error .version => .version
  | .ok scan =>
      match scan.request? with
      | none => .refused
      | some request => .run request

end Chip8.Runner
