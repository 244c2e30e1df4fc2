import Chip8.Proofs.Meaning

/-!
Register arithmetic in exact numbers. The result and the flag register after an operation together
hold the sum, the difference or the shifted operand without loss, whichever registers the opcode
names. Where the destination is the flag register, the result stands there and the flag is lost.
-/

namespace Chip8

/-- What the lowest digit of an opcode promises of the two operands, of the result and of the flag
register before and after it. -/
def Calculates (code left right kept result flag : Nat) : Prop :=
  match code with
  | 0x0 => result = right ∧ flag = kept
  | 0x1 =>
      (∀ place, result.testBit place = (left.testBit place || right.testBit place)) ∧ flag = kept
  | 0x2 =>
      (∀ place, result.testBit place = (left.testBit place && right.testBit place)) ∧ flag = kept
  | 0x3 =>
      (∀ place, result.testBit place = (left.testBit place ^^ right.testBit place)) ∧ flag = kept
  | 0x4 => 256 * flag + result = left + right ∧ flag ≤ 1
  | 0x5 =>
      (result : Int) = left - right + 256 * (1 - flag) ∧ flag ≤ 1 ∧ (flag = 1 ↔ right ≤ left)
  | 0x6 => left = 2 * result + flag ∧ flag ≤ 1
  | 0x7 =>
      (result : Int) = right - left + 256 * (1 - flag) ∧ flag ≤ 1 ∧ (flag = 1 ↔ left ≤ right)
  | 0xE => 2 * left = 256 * flag + result ∧ flag ≤ 1
  | _ => result = left ∧ flag = kept

namespace Arithmetic

variable (operation : Arithmetic) {left right : Nat}

private theorem result_lt (leftSmall : left < 256) (rightSmall : right < 256) :
    operation.result left right < 256 := by
  cases operation with
  | copy => exact rightSmall
  | bitOr => exact Nat.or_lt_two_pow (n := 8) leftSmall rightSmall
  | bitAnd => exact Nat.and_lt_two_pow (n := 8) left rightSmall
  | bitXor => exact Nat.xor_lt_two_pow (n := 8) leftSmall rightSmall
  | add => exact Nat.mod_lt _ (by decide)
  | subtract => exact Nat.mod_lt _ (by decide)
  | shiftRight => exact Nat.lt_of_le_of_lt (Nat.div_le_self left 2) leftSmall
  | subtractFrom => exact Nat.mod_lt _ (by decide)
  | shiftLeft => exact Nat.mod_lt _ (by decide)

/-- A flag is zero or one, so nothing is lost where it is kept in a byte. -/
theorem flag_le {flag : Nat} (leftSmall : left < 256) (rightSmall : right < 256)
    (given : operation.flag? left right = some flag) : flag ≤ 1 := by
  cases operation with
  | copy => cases given
  | bitOr => cases given
  | bitAnd => cases given
  | bitXor => cases given
  | add =>
      have same : (left + right) / 256 = flag := Option.some.inj given
      omega
  | subtract =>
      have same : (if right ≤ left then 1 else 0) = flag := Option.some.inj given
      split at same <;> omega
  | shiftRight =>
      have same : left % 2 = flag := Option.some.inj given
      omega
  | subtractFrom =>
      have same : (if left ≤ right then 1 else 0) = flag := Option.some.inj given
      split at same <;> omega
  | shiftLeft =>
      have same : left / 128 = flag := Option.some.inj given
      omega

/-- A difference that wraps around is off by 256 exactly where it borrows. -/
theorem difference_exact (small : right < 256) (leftSmall : left < 256) :
    (((left + 256 - right) % 256 : Nat) : Int) =
      left - right + 256 * (1 - ((if right ≤ left then 1 else 0 : Nat) : Int)) := by
  split <;> omega

private theorem calculates (leftSmall : left < 256) (rightSmall : right < 256) (kept : Nat) :
    Calculates operation.code left right kept (operation.result left right)
      ((operation.flag? left right).getD kept) := by
  cases operation with
  | copy => exact ⟨rfl, rfl⟩
  | bitOr => exact ⟨fun place => Nat.testBit_or left right place, rfl⟩
  | bitAnd => exact ⟨fun place => Nat.testBit_and left right place, rfl⟩
  | bitXor => exact ⟨fun place => Nat.testBit_xor left right place, rfl⟩
  | add =>
      refine ⟨?_, flag_le .add leftSmall rightSmall rfl⟩
      exact Nat.div_add_mod (left + right) 256
  | subtract =>
      refine ⟨difference_exact rightSmall leftSmall,
        flag_le .subtract leftSmall rightSmall rfl, ?_⟩
      simp [flag?]
  | shiftRight =>
      refine ⟨?_, flag_le .shiftRight leftSmall rightSmall rfl⟩
      exact (Nat.div_add_mod left 2).symm
  | subtractFrom =>
      refine ⟨difference_exact leftSmall rightSmall,
        flag_le .subtractFrom leftSmall rightSmall rfl, ?_⟩
      simp [flag?]
  | shiftLeft =>
      refine ⟨?_, flag_le .shiftLeft leftSmall rightSmall rfl⟩
      change 2 * left = 256 * (left / 128) + 2 * left % 256
      omega

variable (machine : Machine) (x y : Register)

private theorem number_execute (register : Register) :
    (operation.execute x y machine).number register =
      if register = x then operation.result (machine.number x) (machine.number y)
      else if register = Register.flag then
        (operation.flag? (machine.number x) (machine.number y)).getD (machine.number register)
      else machine.number register := by
  have leftSmall : machine.number x < 256 := (machine.register x).toNat_lt
  have rightSmall : machine.number y < 256 := (machine.register y).toNat_lt
  rw [execute, Machine.number_setNumber _ _ _ (operation.result_lt leftSmall rightSmall)]
  congr 1
  cases given : operation.flag? (machine.number x) (machine.number y) with
  | none => exact (ite_self _).symm
  | some flag =>
      have small := operation.flag_le leftSmall rightSmall given
      exact machine.number_setNumber Register.flag register (by omega)

private theorem execute_eq :
    operation.execute x y machine =
      { machine with registers := (operation.execute x y machine).registers } := by
  rw [execute]
  cases operation.flag? (machine.number x) (machine.number y) <;> rfl

end Arithmetic

private theorem calculates_unnamed {code : Nibble} (unnamed : Arithmetic.ofCode? code.val = none)
    (left right kept : Nat) : Calculates code.val left right kept left kept := by
  fin_cases code <;> first | exact ⟨rfl, rfl⟩ | cases unnamed

namespace Machine

variable (machine : Machine) (x y : Register) (code : Nibble)

private theorem dispatch_arithmetic :
    RoutineTable.standard.dispatch (.ofDigits 0x8 x y code) machine =
      match Arithmetic.ofCode? code.val with
      | none => .rejecting machine (.ofDigits 0x8 x y code)
      | some operation => .quiet (operation.execute x y machine) := by
  have family : (Opcode.ofDigits 0x8 x y code).family.val = 0x8 :=
    congrArg Fin.val (Opcode.family_ofDigits _ _ _ _)
  rw [RoutineTable.dispatch_eq, RoutineTable.instruction?_standard, Instruction.ofOpcode?, family]
  simp only [Opcode.x_ofDigits, Opcode.y_ofDigits, Opcode.nibble_ofDigits]
  cases Arithmetic.ofCode? code.val <;> rfl

/-- The operations of the arithmetic group are exact, whichever registers the opcode names. Result
and flag account for the operands without loss, and the flag register holds the flag unless it is
the destination, where the result is the same as in any other register. Nothing else changes, and
nothing at all under a digit that asks for no operation. -/
theorem arithmetic_exact (machine : Machine) (x y : Register) (code : Nibble) :
    let step := RoutineTable.standard.dispatch (.ofDigits 0x8 x y code) machine
    let after := step.machine
    step.failure = none ∧
      (∃ flag,
        Calculates code.val (machine.number x) (machine.number y) (machine.number Register.flag)
          (after.number x) flag ∧
        after.number Register.flag = if x = Register.flag then after.number x else flag) ∧
      (∀ (other : Machine) (destination source : Register),
        other.number destination = machine.number x → other.number source = machine.number y →
        (RoutineTable.standard.dispatch (.ofDigits 0x8 destination source code)
          other).machine.number destination = after.number x) ∧
      after = { machine with registers := after.registers } ∧
      (∀ register, register ≠ x → register ≠ Register.flag →
        after.register register = machine.register register) ∧
      ((8 ≤ code.val ∧ code.val ≤ 0xD) ∨ code.val = 0xF → after = machine) := by
  intro step after
  have taken : step = _ := machine.dispatch_arithmetic x y code
  unfold after
  cases asked : Arithmetic.ofCode? code.val with
  | none =>
      simp only [asked] at taken
      rw [taken]
      refine ⟨rfl, ⟨machine.number Register.flag, calculates_unnamed asked _ _ _, ?_⟩, ?_, rfl,
        fun _ _ _ => rfl, fun _ => rfl⟩
      · split
        case isTrue same => rw [same]
        case isFalse => rfl
      · intro other destination source sameLeft _
        rw [dispatch_arithmetic, asked]
        exact sameLeft
  | some operation =>
      simp only [asked] at taken
      have named : operation.code = code.val := Arithmetic.ofCode?_eq_some_iff.mp asked
      have result := operation.number_execute machine x y x
      rw [if_pos rfl] at result
      rw [taken]
      refine ⟨rfl, ⟨(operation.flag? (machine.number x) (machine.number y)).getD
        (machine.number Register.flag), ?_, ?_⟩, ?_, operation.execute_eq machine x y, ?_, ?_⟩
      · rw [← named, Step.quiet, result]
        exact operation.calculates (machine.register x).toNat_lt (machine.register y).toNat_lt _
      · rw [Step.quiet, result, operation.number_execute, if_pos rfl]
        exact if_congr eq_comm rfl rfl
      · intro other destination source sameLeft sameRight
        have same := operation.number_execute other destination source destination
        rw [if_pos rfl, sameLeft, sameRight] at same
        rw [dispatch_arithmetic, asked]
        exact same.trans result.symm
      · intro register notDestination notFlag
        have kept := operation.number_execute machine x y register
        rw [if_neg notDestination, if_neg notFlag] at kept
        exact UInt8.toNat_inj.mp kept
      · intro beyond
        rw [← named] at beyond
        cases operation <;> exact absurd beyond (by decide)

end Machine

end Chip8
