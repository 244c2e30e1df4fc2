/-!
Upper-case hexadecimal text. A numeral is written in a field of a least width, filled with
leading zeros, and grows to the left when the field is too narrow.
-/

namespace Chip8.Numeral

def hexDigits : List Char :=
  ['0', '1', '2', '3', '4', '5', '6', '7', '8', '9', 'A', 'B', 'C', 'D', 'E', 'F']

def hexDigit (value : Nat) : Char := hexDigits.getD (value % 16) '0'

/-- At most `limit` digits without leading zeros, highest first; none of zero. -/
def hexDigitsUpTo : Nat → Nat → List Char
  | 0, _ => []
  | limit + 1, value =>
      if value = 0 then [] else hexDigitsUpTo limit (value / 16) ++ [hexDigit value]

/-- The digits of a number without leading zeros. It has fewer digits than its value. -/
def hexDigitsOf (value : Nat) : List Char := hexDigitsUpTo value value

def hexField : Nat → Nat → List Char
  | 0, value => hexDigitsOf value
  | width + 1, value => hexField width (value / 16) ++ [hexDigit value]

def hexText (width value : Nat) : String := String.ofList (hexField width value)

private theorem hexDigit_mem (value : Nat) : hexDigit value ∈ hexDigits := by
  have small : ∀ digit < 16, hexDigits.getD digit '0' ∈ hexDigits := by decide
  exact small (value % 16) (Nat.mod_lt value (by decide))

theorem mem_hexDigits_of_mem_hexField {width value : Nat} {digit : Char}
    (member : digit ∈ hexField width value) : digit ∈ hexDigits := by
  have leading : ∀ limit value, digit ∈ hexDigitsUpTo limit value → digit ∈ hexDigits := by
    intro limit
    induction limit with
    | zero =>
        intro value member
        cases member
    | succ limit inductionHypothesis =>
        intro value member
        rw [hexDigitsUpTo] at member
        split at member
        · cases member
        · rcases List.mem_append.mp member with higher | last
          · exact inductionHypothesis _ higher
          · rw [List.mem_singleton.mp last]
            exact hexDigit_mem value
  induction width generalizing value with
  | zero => exact leading value value member
  | succ width inductionHypothesis =>
      rcases List.mem_append.mp member with higher | last
      · exact inductionHypothesis higher
      · rw [List.mem_singleton.mp last]
        exact hexDigit_mem value

/-! ### Reading -/

def hexNumber (digits : List Char) : Nat :=
  digits.foldl (fun value digit => value * 16 + hexDigits.idxOf digit) 0

private theorem idxOf_hexDigit (value : Nat) : hexDigits.idxOf (hexDigit value) = value % 16 := by
  have small : ∀ digit < 16, hexDigits.idxOf (hexDigits.getD digit '0') = digit := by decide
  exact small (value % 16) (Nat.mod_lt value (by decide))

private theorem hexNumber_append_hexDigit (digits : List Char) (value : Nat) :
    hexNumber (digits ++ [hexDigit value]) = hexNumber digits * 16 + value % 16 := by
  rw [hexNumber, List.foldl_append, List.foldl_cons, List.foldl_nil, idxOf_hexDigit]
  rfl

/-- Reading gives back the number that was written, whatever the width of its field. -/
theorem hexNumber_hexField (width value : Nat) : hexNumber (hexField width value) = value := by
  have leading : ∀ limit value, value ≤ limit → hexNumber (hexDigitsUpTo limit value) = value := by
    intro limit
    induction limit with
    | zero =>
        intro value zero
        rw [Nat.le_zero.mp zero]
        rfl
    | succ limit inductionHypothesis =>
        intro value bound
        rw [hexDigitsUpTo]
        split
        · next zero => exact zero.symm
        · rw [hexNumber_append_hexDigit, inductionHypothesis _ (by omega)]
          omega
  induction width generalizing value with
  | zero => exact leading value value (Nat.le_refl value)
  | succ width inductionHypothesis =>
      rw [hexField, hexNumber_append_hexDigit, inductionHypothesis]
      omega

end Chip8.Numeral
