/-!
Reading an unsigned 64-bit numeral in a radix up to 36. One leading plus sign is
allowed. The text is read from the left and the first fault found is reported, so
a long numeral with a bad digit far to the right is too large, not malformed.
-/

namespace Chip8.Numeral

inductive UnsignedFault
  | empty
  | invalidDigit
  | tooLarge
  deriving DecidableEq, Repr

def UnsignedFault.message : UnsignedFault → String
  | .empty => "cannot parse integer from empty string"
  | .invalidDigit => "invalid digit found in string"
  | .tooLarge => "number too large to fit in target type"

def unsignedBound : Nat := UInt64.size

/-- Digits and letters are those of ASCII; the case of a letter does not matter. -/
def digitValue? (radix : Nat) (digit : Char) : Option Nat :=
  let value? :=
    if digit.isDigit then some (digit.toNat - '0'.toNat)
    else if digit.isLower then some (digit.toNat - 'a'.toNat + 10)
    else if digit.isUpper then some (digit.toNat - 'A'.toNat + 10)
    else none
  value?.filter fun value => decide (value < radix)

def unsignedFrom (radix : Nat) : Nat → List Char → Except UnsignedFault Nat
  | value, [] => .ok value
  | value, digit :: rest =>
      match digitValue? radix digit with
      | none => .error .invalidDigit
      | some last =>
          if value * radix + last < unsignedBound then
            unsignedFrom radix (value * radix + last) rest
          else .error .tooLarge

def unsigned (radix : Nat) (text : String) : Except UnsignedFault Nat :=
  match text.toList with
  | [] => .error .empty
  | ['+'] => .error .invalidDigit
  | '+' :: digits => unsignedFrom radix 0 digits
  | digits => unsignedFrom radix 0 digits

end Chip8.Numeral
