import Chip8.Instruction.Basic

/-!
Assembler text of instructions: a name, then the operands in order, separated by
commas. Shifts name only the register that they change.
-/

namespace Chip8

def addressOperand (address : Address) : String := "#" ++ Numeral.hexText 3 address.val

def byteOperand (value : UInt8) : String := "#" ++ Numeral.hexText 2 value.toNat

def Operand.text : Operand → String
  | .register source => source.name
  | .immediate value => byteOperand value

def operandList : List String → String
  | [] => ""
  | [last] => last
  | first :: rest => first ++ ", " ++ operandList rest

def assemblerLine (name : String) (operands : List String) : String :=
  match operands with
  | [] => name
  | _ => name ++ " " ++ operandList operands

def Arithmetic.line (x y : Register) : Arithmetic → String
  | .copy => assemblerLine "LD" [x.name, y.name]
  | .bitOr => assemblerLine "OR" [x.name, y.name]
  | .bitAnd => assemblerLine "AND" [x.name, y.name]
  | .bitXor => assemblerLine "XOR" [x.name, y.name]
  | .add => assemblerLine "ADD" [x.name, y.name]
  | .subtract => assemblerLine "SUB" [x.name, y.name]
  | .shiftRight => assemblerLine "SHR" [x.name]
  | .subtractFrom => assemblerLine "SUBN" [x.name, y.name]
  | .shiftLeft => assemblerLine "SHL" [x.name]

def Auxiliary.line (x : Register) : Auxiliary → String
  | .readDelay => assemblerLine "LD" [x.name, "DT"]
  | .awaitKey => assemblerLine "LD" [x.name, "K"]
  | .setDelay => assemblerLine "LD" ["DT", x.name]
  | .setSound => assemblerLine "LD" ["ST", x.name]
  | .addIndex => assemblerLine "ADD" ["I", x.name]
  | .pointGlyph => assemblerLine "LD" ["F", x.name]
  | .storeDecimal => assemblerLine "LD" ["B", x.name]
  | .saveRegisters => assemblerLine "LD" ["[I]", x.name]
  | .restoreRegisters => assemblerLine "LD" [x.name, "[I]"]

def Instruction.line : Instruction → String
  | .callSystem target => assemblerLine "SYS" [addressOperand target]
  | .clearScreen => assemblerLine "CLS" []
  | .leave => assemblerLine "RET" []
  | .jump target => assemblerLine "JP" [addressOperand target]
  | .call target => assemblerLine "CALL" [addressOperand target]
  | .skipIfEqual x operand => assemblerLine "SE" [x.name, operand.text]
  | .skipUnlessEqual x operand => assemblerLine "SNE" [x.name, operand.text]
  | .load x value => assemblerLine "LD" [x.name, byteOperand value]
  | .addImmediate x value => assemblerLine "ADD" [x.name, byteOperand value]
  | .arithmetic operation x y => operation.line x y
  | .loadIndex target => assemblerLine "LD" ["I", addressOperand target]
  | .jumpOffset base => assemblerLine "JP" ["V0", addressOperand base]
  | .random x mask => assemblerLine "RND" [x.name, byteOperand mask]
  | .draw x y height => assemblerLine "DRW" [x.name, y.name, toString height.val]
  | .skipOnKey x true => assemblerLine "SKP" [x.name]
  | .skipOnKey x false => assemblerLine "SKNP" [x.name]
  | .auxiliary operation x => operation.line x

end Chip8
