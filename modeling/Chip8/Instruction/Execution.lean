import Chip8.Machine.Step

/-!
The meaning of every instruction, by cases on the instruction alone. Register values are
computed here as natural numbers. This is the measure for whatever carries out opcodes.
-/

namespace Chip8

/-! ### Arithmetic on numbers below 256 -/

def Arithmetic.result (left right : Nat) : Arithmetic → Nat
  | .copy => right
  | .bitOr => left ||| right
  | .bitAnd => left &&& right
  | .bitXor => left ^^^ right
  | .add => (left + right) % 256
  | .subtract => (left + 256 - right) % 256
  | .shiftRight => left / 2
  | .subtractFrom => (right + 256 - left) % 256
  | .shiftLeft => 2 * left % 256

/-- The carry of a sum, the absence of a borrow, or the bit shifted out. -/
def Arithmetic.flag? (left right : Nat) : Arithmetic → Option Nat
  | .copy => none
  | .bitOr => none
  | .bitAnd => none
  | .bitXor => none
  | .add => some ((left + right) / 256)
  | .subtract => some (if right ≤ left then 1 else 0)
  | .shiftRight => some (left % 2)
  | .subtractFrom => some (if left ≤ right then 1 else 0)
  | .shiftLeft => some (left / 128)

def decimalDigits (value : Nat) : List Nat := [value / 100, value / 10 % 10, value % 10]

namespace Machine

def number (machine : Machine) (register : Register) : Nat := (machine.register register).toNat

def setNumber (machine : Machine) (register : Register) (value : Nat) : Machine :=
  machine.setRegister register (UInt8.ofNat value)

def jumpTo (machine : Machine) (target : Nat) : Machine :=
  { machine with counter := UInt16.ofNat target }

def pointTo (machine : Machine) (address : Nat) : Machine :=
  { machine with index := UInt16.ofNat address }

def spanAtIndex (machine : Machine) (length : Nat) : Except Fault Span :=
  Span.of machine.index.toNat length

def indexSpan (machine : Machine) {length : Nat}
    (within : machine.index.toNat + length ≤ memorySize) : Span :=
  { start := machine.index.toNat
    length := length
    within := within }

theorem spanAtIndex_of_le (machine : Machine) {length : Nat}
    (within : machine.index.toNat + length ≤ memorySize) :
    machine.spanAtIndex length = .ok (machine.indexSpan within) := Span.of_of_le within

theorem spanAtIndex_of_lt (machine : Machine) {offset : Nat}
    (beyond : memorySize < machine.index.toNat + (offset + 1)) :
    machine.spanAtIndex (offset + 1) =
      .error (.addressOutOfBounds (machine.index.toNat + offset)) := by
  rw [spanAtIndex, Span.of_of_lt beyond, Nat.max_eq_left (Nat.le_add_left 1 offset)]
  rfl

theorem number_setNumber (machine : Machine) (written read : Register) {value : Nat}
    (small : value < 256) :
    (machine.setNumber written value).number read =
      if read = written then value else machine.number read := by
  rw [number, setNumber, register_setRegister, apply_ite UInt8.toNat,
    UInt8.toNat_ofNat_of_lt' small]
  rfl

end Machine

def Operand.value (machine : Machine) : Operand → UInt8
  | .register source => machine.register source
  | .immediate value => value

/-! ### Instructions with a code of their own -/

/-- The result is written last, also when the flag register is the destination. -/
def Arithmetic.execute (operation : Arithmetic) (x y : Register) (machine : Machine) :
    Machine :=
  let left := machine.number x
  let right := machine.number y
  let flagged :=
    match operation.flag? left right with
    | none => machine
    | some flag => machine.setNumber Register.flag flag
  flagged.setNumber x (operation.result left right)

def Auxiliary.execute (operation : Auxiliary) (x : Register) (machine : Machine) : Step Fault :=
  match operation with
  | .readDelay => .quiet (machine.setRegister x machine.delay.value)
  | .awaitKey =>
      match machine.keypad.lowest? with
      | some key => .quiet (machine.setNumber x key.val)
      | none => .quiet { machine with counter := machine.counter - 2 }
  | .setDelay => .quiet { machine with delay := { value := machine.register x } }
  | .setSound => .quiet { machine with sound := { value := machine.register x } }
  | .addIndex => .quiet (machine.pointTo ((machine.index.toNat + machine.number x) % 4096))
  | .pointGlyph =>
      .quiet (machine.pointTo (glyphStart + Glyph.height * (machine.number x % 16)))
  | .storeDecimal =>
      match machine.spanAtIndex 3 with
      | .error fault => .failing machine fault
      | .ok span =>
          let digits := (decimalDigits (machine.number x)).map UInt8.ofNat
          .quiet { machine with memory := machine.memory.overwrite span.start digits }
  | .saveRegisters =>
      match machine.spanAtIndex (x.val + 1) with
      | .error fault => .failing machine fault
      | .ok span =>
          let values := (List.finRange 16).take (x.val + 1) |>.map machine.register
          .quiet { machine with memory := machine.memory.overwrite span.start values }
  | .restoreRegisters =>
      match machine.spanAtIndex (x.val + 1) with
      | .error fault => .failing machine fault
      | .ok span =>
          let values := machine.memory.window span
          .quiet
            { machine with
              registers := Vector.ofFn fun register =>
                values.getD register.val (machine.register register) }

/-! ### All instructions -/

/-- Carries out an instruction, with the program counter already past it. -/
def Instruction.execute (machine : Machine) : Instruction → Step Fault
  | .callSystem target => .sending machine [.noticed (.ignoredSystemCall target)]
  | .clearScreen =>
      .sending { machine with panel := machine.panel.clear } [.redrawn Screen.dark]
  | .leave =>
      match machine.stack.pop with
      | .error fault => .failing machine fault
      | .ok (address, stack) => .quiet { machine with stack := stack, counter := address }
  | .jump target => .quiet (machine.jumpTo target.val)
  | .call target =>
      match machine.stack.push machine.counter with
      | .error fault => .failing machine fault
      | .ok stack => .quiet ({ machine with stack := stack }.jumpTo target.val)
  | .skipIfEqual x operand =>
      .quiet (if machine.register x = operand.value machine then machine.skip else machine)
  | .skipUnlessEqual x operand =>
      .quiet (if machine.register x = operand.value machine then machine else machine.skip)
  | .load x value => .quiet (machine.setRegister x value)
  | .addImmediate x value =>
      .quiet (machine.setNumber x ((machine.number x + value.toNat) % 256))
  | .arithmetic operation x y => .quiet (operation.execute x y machine)
  | .loadIndex target => .quiet (machine.pointTo target.val)
  | .jumpOffset base => .quiet (machine.jumpTo (base.val + machine.number Register.base))
  | .random x mask =>
      .quiet ({ machine with entropy := machine.entropy.advance }.setRegister x
        (machine.entropy.next &&& mask))
  | .draw x y height =>
      match machine.spanAtIndex height.val with
      | .error fault => .failing machine fault
      | .ok span =>
          let drawn :=
            machine.panel.draw (machine.memory.window span) (machine.number x) (machine.number y)
          let collided := if drawn.2 then 1 else 0
          .sending { machine.setNumber Register.flag collided with panel := drawn.1 }
            [.redrawn drawn.1.screen]
  | .skipOnKey x down =>
      let key := Key.ofByte (machine.register x)
      .quiet (if machine.keypad.isDown key = down then machine.skip else machine)
  | .auxiliary operation x => operation.execute x machine

end Chip8
