import Chip8.Instruction.Mnemonic
import Chip8.Proofs.Meaning
import Mathlib.Algebra.Group.Nat.Defs

/-!
Assembler text read back. The line of an instruction determines the instruction, but for the
register that a shift does not name, and a shift does not depend on that register. So opcodes with
one line have one effect, and apart from shifts no two opcodes have one line.
-/

namespace Chip8

/-! ### Operands -/

def Plain (text : String) : Prop := ' ' ∉ text.toList ∧ ',' ∉ text.toList

instance (text : String) : Decidable (Plain text) := inferInstanceAs (Decidable (_ ∧ _))

private theorem plain_hexText (width value : Nat) : Plain ("#" ++ Numeral.hexText width value) := by
  have marks (mark : Char) (other : mark ∉ '#' :: Numeral.hexDigits) :
      mark ∉ ("#" ++ Numeral.hexText width value).toList := by
    intro member
    rw [Numeral.hexText, String.toList_append] at member
    apply other
    rcases List.mem_append.mp member with first | digit
    · exact List.mem_cons.mpr (.inl (List.mem_singleton.mp first))
    · rw [String.toList_ofList] at digit
      exact List.mem_cons_of_mem _ (Numeral.mem_hexDigits_of_mem_hexField digit)
  exact ⟨marks ' ' (by decide), marks ',' (by decide)⟩

inductive Special
  | delay
  | sound
  | key
  | index
  | glyph
  | decimal
  | block
  deriving DecidableEq, Repr

def Special.all : List Special := [.delay, .sound, .key, .index, .glyph, .decimal, .block]

def Special.text : Special → String
  | .delay => "DT"
  | .sound => "ST"
  | .key => "K"
  | .index => "I"
  | .glyph => "F"
  | .decimal => "B"
  | .block => "[I]"

inductive Argument
  | register (source : Register)
  | byte (value : UInt8)
  | address (target : Address)
  | height (rows : Nibble)
  | special (name : Special)
  deriving DecidableEq, Repr

theorem Numeral.length_hexField {width value : Nat} (fits : value < 16 ^ width) :
    (Numeral.hexField width value).length = width := by
  induction width generalizing value with
  | zero =>
      have zero : value = 0 := Nat.lt_one_iff.mp fits
      subst zero
      rfl
  | succ width inductionHypothesis =>
      rw [Numeral.hexField, List.length_append, List.length_singleton, inductionHypothesis]
      rw [Nat.pow_succ] at fits
      exact Nat.div_lt_of_lt_mul (Nat.mul_comm _ _ ▸ fits)

namespace Argument

def text : Argument → String
  | .register source => source.name
  | .byte value => byteOperand value
  | .address target => addressOperand target
  | .height rows => toString rows.val
  | .special name => name.text

/-- The arguments that are not written in hexadecimal digits. -/
def listed : List Argument :=
  (List.finRange 16).map .height ++ Special.all.map .special

/-- Bytes and addresses are told apart by the number of their digits. -/
def ofChars? : List Char → Option Argument
  | ['V', digit] => some (.register (Nibble.ofNat (Numeral.hexNumber [digit])))
  | ['#', high, low] => some (.byte (UInt8.ofNat (Numeral.hexNumber [high, low])))
  | ['#', high, middle, low] =>
      some (.address (Fin.ofNat 4096 (Numeral.hexNumber [high, middle, low])))
  | characters => listed.find? fun argument => argument.text.toList == characters

private theorem ofChars?_byte (value : UInt8) :
    ofChars? (byteOperand value).toList = some (.byte value) := by
  have length : (Numeral.hexField 2 value.toNat).length = 2 :=
    Numeral.length_hexField value.toNat_lt
  have number := Numeral.hexNumber_hexField 2 value.toNat
  obtain ⟨high, low, digits⟩ := List.length_eq_two.mp length
  have characters : (byteOperand value).toList = ['#', high, low] := by
    simp [byteOperand, Numeral.hexText, digits]
  rw [digits] at number
  rw [characters, ofChars?, number, UInt8.ofNat_toNat]

private theorem ofChars?_address (target : Address) :
    ofChars? (addressOperand target).toList = some (.address target) := by
  have length : (Numeral.hexField 3 target.val).length = 3 :=
    Numeral.length_hexField target.isLt
  have number := Numeral.hexNumber_hexField 3 target.val
  obtain ⟨high, middle, low, digits⟩ := List.length_eq_three.mp length
  have characters : (addressOperand target).toList = ['#', high, middle, low] := by
    simp [addressOperand, Numeral.hexText, digits]
  rw [digits] at number
  rw [characters, ofChars?, number, Fin.ofNat_val_eq_self]

private theorem ofChars?_text (argument : Argument) :
    ofChars? argument.text.toList = some argument := by
  cases argument with
  | register source =>
      revert source
      decide
  | byte value => exact ofChars?_byte value
  | address target => exact ofChars?_address target
  | height rows =>
      revert rows
      decide
  | special name => cases name <;> decide

private theorem plain_text (argument : Argument) : Plain argument.text := by
  cases argument with
  | register source =>
      revert source
      decide
  | byte value => exact plain_hexText 2 value.toNat
  | address target => exact plain_hexText 3 target.val
  | height rows =>
      revert rows
      decide
  | special name => cases name <;> decide

private theorem mapM_ofChars? (arguments : List Argument) :
    (arguments.map fun argument => argument.text.toList).mapM ofChars? = some arguments := by
  induction arguments with
  | nil => rfl
  | cons argument rest inductionHypothesis =>
      rw [List.map_cons, List.mapM_cons, ofChars?_text, inductionHypothesis]
      rfl

end Argument

/-! ### Words of a line -/

def lineWords (line : String) : List (List Char) :=
  (line.toList.splitOn ' ').map fun word => word.filter (· != ',')

private def punctuated : List String → List (List Char)
  | [] => []
  | [last] => [last.toList]
  | first :: second :: rest => (first.toList ++ [',']) :: punctuated (second :: rest)

private theorem toList_operandList {operands : List String} (nonempty : operands ≠ []) :
    (operandList operands).toList = [' '].intercalate (punctuated operands) := by
  induction operands with
  | nil => exact absurd rfl nonempty
  | cons first rest inductionHypothesis =>
      cases rest with
      | nil => simp [operandList, punctuated]
      | cons second others =>
          have later := inductionHypothesis (List.cons_ne_nil second others)
          have further : punctuated (second :: others) ≠ [] := by
            cases others <;> exact List.cons_ne_nil _ _
          rw [operandList, punctuated, String.toList_append, String.toList_append, later,
            List.intercalate_cons_of_ne_nil further]
          · simp
          · exact List.cons_ne_nil second others

theorem filter_comma_of_plain {text : String} (plain : Plain text) :
    text.toList.filter (· != ',') = text.toList := by
  rw [List.filter_eq_self]
  intro character member
  rw [bne_iff_ne]
  intro comma
  exact plain.2 (comma ▸ member)

private theorem map_filter_punctuated {operands : List String}
    (plain : ∀ operand ∈ operands, Plain operand) :
    (punctuated operands).map (·.filter (· != ',')) = operands.map String.toList := by
  induction operands with
  | nil => rfl
  | cons first rest inductionHypothesis =>
      obtain ⟨here, onward⟩ := List.forall_mem_cons.mp plain
      cases rest with
      | nil => rw [punctuated, List.map_singleton, filter_comma_of_plain here, List.map_singleton]
      | cons second others =>
          rw [punctuated, List.map_cons, inductionHypothesis onward, List.filter_append,
            filter_comma_of_plain here]
          exact congrArg (· :: _) (List.append_nil _)

private theorem blank_not_mem_punctuated {operands : List String}
    (plain : ∀ operand ∈ operands, Plain operand) :
    ∀ word ∈ punctuated operands, ' ' ∉ word := by
  induction operands with
  | nil => exact List.forall_mem_nil _
  | cons first rest inductionHypothesis =>
      obtain ⟨here, onward⟩ := List.forall_mem_cons.mp plain
      cases rest with
      | nil => exact List.forall_mem_singleton.mpr here.1
      | cons second others =>
          refine List.forall_mem_cons.mpr ⟨?_, inductionHypothesis onward⟩
          intro blank
          rcases List.mem_append.mp blank with inside | comma
          · exact here.1 inside
          · exact absurd comma (by decide)

private theorem lineWords_assemblerLine {name : String} {operands : List String}
    (plain : ∀ word ∈ name :: operands, Plain word) :
    lineWords (assemblerLine name operands) = (name :: operands).map String.toList := by
  obtain ⟨here, onward⟩ := List.forall_mem_cons.mp plain
  have characters : (assemblerLine name operands).toList =
      [' '].intercalate (name.toList :: punctuated operands) := by
    cases operands with
    | nil => simp [assemblerLine, punctuated]
    | cons first rest =>
        have nonempty : punctuated (first :: rest) ≠ [] := by
          cases rest <;> exact List.cons_ne_nil _ _
        simp only [assemblerLine, String.toList_append,
          toList_operandList (List.cons_ne_nil first rest),
          List.intercalate_cons_of_ne_nil nonempty]
        simp
  rw [lineWords, characters, List.splitOn_intercalate, List.map_cons, filter_comma_of_plain here,
    map_filter_punctuated onward, List.map_cons]
  · exact List.forall_mem_cons.mpr ⟨here.1, blank_not_mem_punctuated onward⟩
  · exact List.cons_ne_nil _ _

/-! ### Reading an instruction -/

/-- Whether an operation ignores its second operand. -/
def Arithmetic.shifts : Arithmetic → Bool
  | .shiftRight => true
  | .shiftLeft => true
  | _ => false

def Arithmetic.parts (x y : Register) : Arithmetic → String × List Argument
  | .copy => ("LD", [.register x, .register y])
  | .bitOr => ("OR", [.register x, .register y])
  | .bitAnd => ("AND", [.register x, .register y])
  | .bitXor => ("XOR", [.register x, .register y])
  | .add => ("ADD", [.register x, .register y])
  | .subtract => ("SUB", [.register x, .register y])
  | .shiftRight => ("SHR", [.register x])
  | .subtractFrom => ("SUBN", [.register x, .register y])
  | .shiftLeft => ("SHL", [.register x])

def Auxiliary.parts (x : Register) : Auxiliary → String × List Argument
  | .readDelay => ("LD", [.register x, .special .delay])
  | .awaitKey => ("LD", [.register x, .special .key])
  | .setDelay => ("LD", [.special .delay, .register x])
  | .setSound => ("LD", [.special .sound, .register x])
  | .addIndex => ("ADD", [.special .index, .register x])
  | .pointGlyph => ("LD", [.special .glyph, .register x])
  | .storeDecimal => ("LD", [.special .decimal, .register x])
  | .saveRegisters => ("LD", [.special .block, .register x])
  | .restoreRegisters => ("LD", [.register x, .special .block])

def Operand.argument : Operand → Argument
  | .register source => .register source
  | .immediate value => .byte value

namespace Instruction

private def parts : Instruction → String × List Argument
  | .callSystem target => ("SYS", [.address target])
  | .clearScreen => ("CLS", [])
  | .leave => ("RET", [])
  | .jump target => ("JP", [.address target])
  | .call target => ("CALL", [.address target])
  | .skipIfEqual x operand => ("SE", [.register x, operand.argument])
  | .skipUnlessEqual x operand => ("SNE", [.register x, operand.argument])
  | .load x value => ("LD", [.register x, .byte value])
  | .addImmediate x value => ("ADD", [.register x, .byte value])
  | .arithmetic operation x y => operation.parts x y
  | .loadIndex target => ("LD", [.special .index, .address target])
  | .jumpOffset base => ("JP", [.register Register.base, .address base])
  | .random x mask => ("RND", [.register x, .byte mask])
  | .draw x y height => ("DRW", [.register x, .register y, .height height])
  | .skipOnKey x true => ("SKP", [.register x])
  | .skipOnKey x false => ("SKNP", [.register x])
  | .auxiliary operation x => operation.parts x

private def names : List String :=
  ["SYS", "CLS", "RET", "JP", "CALL", "SE", "SNE", "LD", "ADD", "OR", "AND", "XOR", "SUB", "SUBN",
    "SHR", "SHL", "RND", "DRW", "SKP", "SKNP"]

/-- The instruction of a name and operands. A shift is read with its register twice. -/
def ofParts? : String → List Argument → Option Instruction
  | "SYS", [.address target] => some (.callSystem target)
  | "CLS", [] => some .clearScreen
  | "RET", [] => some .leave
  | "JP", [.address target] => some (.jump target)
  | "JP", [.register _, .address base] => some (.jumpOffset base)
  | "CALL", [.address target] => some (.call target)
  | "SE", [.register x, .register y] => some (.skipIfEqual x (.register y))
  | "SE", [.register x, .byte value] => some (.skipIfEqual x (.immediate value))
  | "SNE", [.register x, .register y] => some (.skipUnlessEqual x (.register y))
  | "SNE", [.register x, .byte value] => some (.skipUnlessEqual x (.immediate value))
  | "LD", [.register x, .byte value] => some (.load x value)
  | "LD", [.register x, .register y] => some (.arithmetic .copy x y)
  | "LD", [.special .index, .address target] => some (.loadIndex target)
  | "LD", [.register x, .special .delay] => some (.auxiliary .readDelay x)
  | "LD", [.register x, .special .key] => some (.auxiliary .awaitKey x)
  | "LD", [.register x, .special .block] => some (.auxiliary .restoreRegisters x)
  | "LD", [.special .delay, .register x] => some (.auxiliary .setDelay x)
  | "LD", [.special .sound, .register x] => some (.auxiliary .setSound x)
  | "LD", [.special .glyph, .register x] => some (.auxiliary .pointGlyph x)
  | "LD", [.special .decimal, .register x] => some (.auxiliary .storeDecimal x)
  | "LD", [.special .block, .register x] => some (.auxiliary .saveRegisters x)
  | "ADD", [.register x, .byte value] => some (.addImmediate x value)
  | "ADD", [.register x, .register y] => some (.arithmetic .add x y)
  | "ADD", [.special .index, .register x] => some (.auxiliary .addIndex x)
  | "OR", [.register x, .register y] => some (.arithmetic .bitOr x y)
  | "AND", [.register x, .register y] => some (.arithmetic .bitAnd x y)
  | "XOR", [.register x, .register y] => some (.arithmetic .bitXor x y)
  | "SUB", [.register x, .register y] => some (.arithmetic .subtract x y)
  | "SUBN", [.register x, .register y] => some (.arithmetic .subtractFrom x y)
  | "SHR", [.register x] => some (.arithmetic .shiftRight x x)
  | "SHL", [.register x] => some (.arithmetic .shiftLeft x x)
  | "RND", [.register x, .byte mask] => some (.random x mask)
  | "DRW", [.register x, .register y, .height height] => some (.draw x y height)
  | "SKP", [.register x] => some (.skipOnKey x true)
  | "SKNP", [.register x] => some (.skipOnKey x false)
  | _, _ => none

def ofLine? (line : String) : Option Instruction :=
  match lineWords line with
  | [] => none
  | name :: operands => (operands.mapM Argument.ofChars?).bind (ofParts? (String.ofList name))

def shown : Instruction → Instruction
  | .arithmetic operation x y => .arithmetic operation x (if operation.shifts then x else y)
  | instruction => instruction

private theorem line_eq (instruction : Instruction) :
    instruction.line =
      assemblerLine instruction.parts.1 (instruction.parts.2.map Argument.text) := by
  cases instruction with
  | skipIfEqual x operand => cases operand <;> rfl
  | skipUnlessEqual x operand => cases operand <;> rfl
  | arithmetic operation x y => cases operation <;> rfl
  | skipOnKey x down => cases down <;> rfl
  | auxiliary operation x => cases operation <;> rfl
  | _ => rfl

private theorem ofParts?_parts (instruction : Instruction) :
    ofParts? instruction.parts.1 instruction.parts.2 = some instruction.shown := by
  cases instruction with
  | skipIfEqual x operand => cases operand <;> rfl
  | skipUnlessEqual x operand => cases operand <;> rfl
  | arithmetic operation x y => cases operation <;> rfl
  | skipOnKey x down => cases down <;> rfl
  | auxiliary operation x => cases operation <;> rfl
  | _ => rfl

private theorem name_mem (instruction : Instruction) : instruction.parts.1 ∈ names := by
  cases instruction with
  | arithmetic operation x y => cases operation <;> simp [parts, Arithmetic.parts, names]
  | skipOnKey x down => cases down <;> simp [parts, names]
  | auxiliary operation x => cases operation <;> simp [parts, Auxiliary.parts, names]
  | _ => simp [parts, names]

private theorem plain_names : ∀ name ∈ names, Plain name := by decide

/-- A line is read back as the instruction that it shows. -/
theorem ofLine?_line (instruction : Instruction) :
    ofLine? instruction.line = some instruction.shown := by
  have plain : ∀ word ∈ instruction.parts.1 :: instruction.parts.2.map Argument.text,
      Plain word := by
    refine List.forall_mem_cons.mpr ⟨plain_names _ instruction.name_mem, ?_⟩
    intro word member
    obtain ⟨argument, _, same⟩ := List.mem_map.mp member
    exact same ▸ argument.plain_text
  rw [ofLine?, line_eq, lineWords_assemblerLine plain, List.map_cons, List.map_map]
  have operands := Argument.mapM_ofChars? instruction.parts.2
  simp only [Function.comp_def, operands, String.ofList_toList, Option.bind_some]
  exact instruction.ofParts?_parts

/-! ### The word of an instruction -/

def word : Instruction → Nat
  | .callSystem target => target.val
  | .clearScreen => 0x00E0
  | .leave => 0x00EE
  | .jump target => 0x1000 + target.val
  | .call target => 0x2000 + target.val
  | .skipIfEqual x (.immediate value) => 0x3000 + 256 * x.val + value.toNat
  | .skipUnlessEqual x (.immediate value) => 0x4000 + 256 * x.val + value.toNat
  | .skipIfEqual x (.register y) => 0x5000 + 256 * x.val + 16 * y.val
  | .load x value => 0x6000 + 256 * x.val + value.toNat
  | .addImmediate x value => 0x7000 + 256 * x.val + value.toNat
  | .arithmetic operation x y => 0x8000 + 256 * x.val + 16 * y.val + operation.code
  | .skipUnlessEqual x (.register y) => 0x9000 + 256 * x.val + 16 * y.val
  | .loadIndex target => 0xA000 + target.val
  | .jumpOffset base => 0xB000 + base.val
  | .random x mask => 0xC000 + 256 * x.val + mask.toNat
  | .draw x y height => 0xD000 + 256 * x.val + 16 * y.val + height.val
  | .skipOnKey x true => 0xE09E + 256 * x.val
  | .skipOnKey x false => 0xE0A1 + 256 * x.val
  | .auxiliary operation x => 0xF000 + 256 * x.val + operation.code

private theorem word_of_systemWord {opcode : Opcode} (family : opcode.family.val = 0) :
    opcode.word.toNat = (ofSystemWord opcode).word := by
  unfold ofSystemWord
  split
  · next clears => rw [clears]; rfl
  · split
    · next leaves => rw [leaves]; rfl
    · rw [Opcode.family_val] at family
      rw [word, Opcode.address_val]
      omega

private theorem word_of_keyWord {opcode : Opcode} {instruction : Instruction}
    (family : opcode.family.val = 14) (reading : ofKeyWord? opcode = some instruction) :
    opcode.word.toNat = instruction.word := by
  rw [Opcode.family_val] at family
  unfold ofKeyWord? at reading
  split at reading
  · next down =>
      have code : opcode.word.toNat % 256 = 0x9E := by rw [← Opcode.byte_toNat, down]; rfl
      cases reading
      rw [word, Opcode.x_val]
      omega
  · split at reading
    · next up =>
        have code : opcode.word.toNat % 256 = 0xA1 := by rw [← Opcode.byte_toNat, up]; rfl
        cases reading
        rw [word, Opcode.x_val]
        omega
    · cases reading

/-- An instruction is decoded from its word alone. -/
theorem word_of_ofOpcode? {opcode : Opcode} {instruction : Instruction}
    (reading : ofOpcode? opcode = some instruction) : opcode.word.toNat = instruction.word := by
  have family := opcode.family_val
  have nibble := opcode.nibble_val
  have byte := opcode.byte_toNat
  have x := opcode.x_val
  have y := opcode.y_val
  have address := opcode.address_val
  have bound := opcode.family.isLt
  unfold ofOpcode? at reading
  split at reading
  case h_1 zero =>
    cases reading
    exact word_of_systemWord zero
  case h_15 fourteen => exact word_of_keyWord fourteen reading
  case h_9 =>
    obtain ⟨operation, found, same⟩ := Option.map_eq_some_iff.mp reading
    have code := Arithmetic.ofCode?_eq_some_iff.mp found
    rw [← same, word]
    omega
  case h_16 =>
    obtain ⟨operation, found, same⟩ := Option.map_eq_some_iff.mp reading
    have code := Auxiliary.ofCode?_eq_some_iff.mp found
    have last : opcode.family.val = 15 := by
      simp only [imp_false] at *
      omega
    rw [← same, word]
    omega
  case h_6 | h_10 =>
    obtain ⟨aligned, same⟩ := Option.ite_none_right_eq_some.mp reading
    rw [← Option.some.inj same, word]
    omega
  all_goals
    rw [← Option.some.inj reading, word]
    omega

end Instruction

/-! ### Shifts -/

namespace Instruction

private def shifts : Instruction → Bool
  | .arithmetic operation _ _ => operation.shifts
  | _ => false

private theorem shifts_shown (instruction : Instruction) :
    instruction.shown.shifts = instruction.shifts := by
  cases instruction <;> rfl

private theorem shown_of_not_shifts {instruction : Instruction}
    (other : instruction.shifts = false) :
    instruction.shown = instruction := by
  cases instruction with
  | arithmetic operation x y =>
      change operation.shifts = false at other
      rw [shown, other]
      rfl
  | _ => rfl

private theorem eq_arithmetic_of_shifts {instruction : Instruction}
    (shifts : instruction.shifts = true) :
    ∃ operation x y, operation.shifts = true ∧ instruction = .arithmetic operation x y := by
  cases instruction with
  | arithmetic operation x y => exact ⟨operation, x, y, shifts, rfl⟩
  | _ => cases shifts

/-- Lines are equal only where the instructions are, or where both shift one register alike. -/
theorem eq_or_shift_of_line_eq {first second : Instruction} (same : first.line = second.line) :
    first = second ∨ ∃ operation x y z, operation.shifts = true ∧
      first = .arithmetic operation x y ∧ second = .arithmetic operation x z := by
  have read : first.shown = second.shown := by
    have readSecond := ofLine?_line second
    rw [← same, ofLine?_line] at readSecond
    exact Option.some.inj readSecond
  have alike : first.shifts = second.shifts := by
    rw [← shifts_shown, read, shifts_shown]
  cases shift : first.shifts with
  | false =>
      rw [shown_of_not_shifts shift, shown_of_not_shifts (alike ▸ shift)] at read
      exact .inl read
  | true =>
      obtain ⟨operation, x, y, shifts, left⟩ := eq_arithmetic_of_shifts shift
      obtain ⟨other, target, z, _, right⟩ := eq_arithmetic_of_shifts (alike ▸ shift)
      rw [left, right] at read
      injection read with operations registers
      exact .inr ⟨operation, x, y, z, shifts, left, by rw [right, operations, registers]⟩

variable {operation : Arithmetic} (shifts : operation.shifts = true) (x y z : Register)

include shifts

private theorem line_of_shifts :
    (arithmetic operation x y).line = (arithmetic operation x z).line := by
  cases operation with
  | shiftRight => rfl
  | shiftLeft => rfl
  | _ => cases shifts

private theorem execute_of_shifts (machine : Machine) :
    (arithmetic operation x y).execute machine = (arithmetic operation x z).execute machine := by
  cases operation with
  | shiftRight => rfl
  | shiftLeft => rfl
  | _ => cases shifts

end Instruction

theorem Arithmetic.shifts_iff {operation : Arithmetic} :
    operation.shifts = true ↔ operation.code = 0x6 ∨ operation.code = 0xE := by
  cases operation <;> decide

namespace Opcode

variable {one other : Opcode}

/-- Whether two opcodes shift the same register in the same direction. -/
def SameShift (one other : Opcode) : Prop :=
  one.family.val = 0x8 ∧ other.family.val = 0x8 ∧ one.x = other.x ∧ one.nibble = other.nibble ∧
    (one.nibble.val = 0x6 ∨ one.nibble.val = 0xE)

private theorem eq_of_ofOpcode? {instruction : Instruction}
    (reading : Instruction.ofOpcode? one = some instruction)
    (otherReading : Instruction.ofOpcode? other = some instruction) : one = other := by
  apply Opcode.ext
  apply UInt16.toNat_inj.mp
  rw [Instruction.word_of_ofOpcode? reading, Instruction.word_of_ofOpcode? otherReading]

variable {operation : Arithmetic} {x y z : Register}

private theorem digits_of_arithmetic
    (reading : Instruction.ofOpcode? one = some (.arithmetic operation x y)) :
    one.family.val = 0x8 ∧ one.x = x ∧ one.nibble.val = operation.code := by
  have word := Instruction.word_of_ofOpcode? reading
  have bound : operation.code < 16 := by cases operation <;> decide
  rw [Instruction.word] at word
  refine ⟨?_, Fin.ext ?_, ?_⟩
  · rw [family_val]
    omega
  · rw [x_val]
    omega
  · rw [nibble_val]
    omega

private theorem sameShift_of_shifts (shifts : operation.shifts = true)
    (reading : Instruction.ofOpcode? one = some (.arithmetic operation x y))
    (otherReading : Instruction.ofOpcode? other = some (.arithmetic operation x z)) :
    one.SameShift other := by
  obtain ⟨family, register, code⟩ := digits_of_arithmetic reading
  obtain ⟨otherFamily, otherRegister, otherCode⟩ := digits_of_arithmetic otherReading
  refine ⟨family, otherFamily, register.trans otherRegister.symm,
    Fin.ext (code.trans otherCode.symm), ?_⟩
  rw [code]
  exact Arithmetic.shifts_iff.mp shifts

private theorem SameShift.exists_shifts (same : one.SameShift other) :
    ∃ operation : Arithmetic, operation.shifts = true ∧
      Instruction.ofOpcode? one = some (.arithmetic operation one.x one.y) ∧
      Instruction.ofOpcode? other = some (.arithmetic operation one.x other.y) := by
  obtain ⟨family, otherFamily, register, nibble, code⟩ := same
  have found : ∃ operation : Arithmetic, operation.code = one.nibble.val := by
    rcases code with right | left
    · exact ⟨.shiftRight, right.symm⟩
    · exact ⟨.shiftLeft, left.symm⟩
  obtain ⟨operation, named⟩ := found
  refine ⟨operation, ?_, ofOpcode?_of_arithmetic family named, ?_⟩
  · rw [Arithmetic.shifts_iff, named]
    exact code
  · rw [register]
    exact ofOpcode?_of_arithmetic otherFamily (named.trans (congrArg Fin.val nibble))

end Opcode

/-! ### Lines and effects -/

/-- Two opcodes have one line exactly if they are the same or shift the same register in the same
direction. They then have one effect under the full table, whatever the machine and whatever
random byte it draws next. -/
theorem line_determines_effect {one other : Opcode} {first second : Instruction}
    (reading : Instruction.decode one = .ok first)
    (otherReading : Instruction.decode other = .ok second) :
    (first.line = second.line ↔ one = other ∨ one.SameShift other) ∧
      (first.line = second.line → ∀ machine : Machine,
        RoutineTable.standard.dispatch one machine =
          RoutineTable.standard.dispatch other machine) := by
  rw [Instruction.decode_eq_ok_iff] at reading otherReading
  refine ⟨⟨?_, ?_⟩, ?_⟩
  · intro same
    rcases Instruction.eq_or_shift_of_line_eq same with
      equal | ⟨operation, x, y, z, shifts, left, right⟩
    · rw [equal] at reading
      exact .inl (Opcode.eq_of_ofOpcode? reading otherReading)
    · rw [left] at reading
      rw [right] at otherReading
      exact .inr (Opcode.sameShift_of_shifts shifts reading otherReading)
  · rintro (equal | shifted)
    · rw [equal, otherReading] at reading
      rw [Option.some.inj reading]
    · obtain ⟨operation, shifts, left, right⟩ := shifted.exists_shifts
      rw [left] at reading
      rw [right] at otherReading
      rw [← Option.some.inj reading, ← Option.some.inj otherReading]
      exact Instruction.line_of_shifts shifts _ _ _
  · intro same machine
    rw [RoutineTable.dispatch_eq, RoutineTable.dispatch_eq, RoutineTable.instruction?_standard,
      RoutineTable.instruction?_standard, reading, otherReading]
    rcases Instruction.eq_or_shift_of_line_eq same with
      equal | ⟨operation, x, y, z, shifts, left, right⟩
    · rw [equal]
      rfl
    · rw [left, right]
      exact Instruction.execute_of_shifts shifts x y z machine

/-- The second digit from the right does not show in the line of a shift. -/
theorem line_determines_effect_shift_right :
    let one : Opcode := { word := 0x8126 }
    let other : Opcode := { word := 0x8136 }
    let first := Instruction.arithmetic .shiftRight 1 2
    let second := Instruction.arithmetic .shiftRight 1 3
    Instruction.decode one = .ok first ∧ Instruction.decode other = .ok second ∧
      first.line = second.line ∧ one ≠ other ∧ one.SameShift other ∧
      ∀ machine : Machine, RoutineTable.standard.dispatch one machine =
        RoutineTable.standard.dispatch other machine := by
  intro one other first second
  have reading : Instruction.decode one = .ok first :=
    Instruction.decode_eq_ok_iff.mpr (by decide)
  have otherReading : Instruction.decode other = .ok second :=
    Instruction.decode_eq_ok_iff.mpr (by decide)
  have same : first.line = second.line := rfl
  have different : one ≠ other := by decide
  obtain ⟨lines, effects⟩ := line_determines_effect reading otherReading
  exact ⟨reading, otherReading, same, different, (lines.mp same).resolve_left different,
    effects same⟩

end Chip8
