import Chip8.Nibble

/-!
The sixteen keys and which of them are down.
-/

namespace Chip8

abbrev Key := Nibble

def Key.ofByte (byte : UInt8) : Key := Nibble.ofNat byte.toNat

def Key.ofIndex? (index : Nat) : Option Key :=
  if within : index < 16 then some ⟨index, within⟩ else none

@[ext]
structure Keypad where
  down : Vector Bool 16
  deriving DecidableEq

namespace Keypad

def released : Keypad :=
  { down := Vector.replicate 16 false }

def isDown (keypad : Keypad) (key : Key) : Bool := keypad.down[key]

def set (keypad : Keypad) (key : Key) (down : Bool) : Keypad :=
  { down := keypad.down.set key down }

def press (keypad : Keypad) (key : Key) : Keypad := keypad.set key true

def release (keypad : Keypad) (key : Key) : Keypad := keypad.set key false

def clear (keypad : Keypad) : Keypad := { keypad with down := Vector.replicate 16 false }

/-- An index that names no key changes nothing. -/
def setIndex (keypad : Keypad) (index : Nat) (down : Bool) : Keypad :=
  match Key.ofIndex? index with
  | some key => keypad.set key down
  | none => keypad

def lowest? (keypad : Keypad) : Option Key := (List.finRange 16).find? keypad.isDown

theorem isDown_released (key : Key) : released.isDown key = false := by
  simp [isDown, released]

theorem isDown_set (keypad : Keypad) (changed key : Key) (down : Bool) :
    (keypad.set changed down).isDown key = if key = changed then down else keypad.isDown key := by
  simp only [isDown, set, Fin.getElem_fin, Vector.getElem_set, Fin.ext_iff]
  by_cases same : key.val = changed.val
  · rw [if_pos same, if_pos same.symm]
  · rw [if_neg same, if_neg (Ne.symm same)]

theorem isDown_setIndex (keypad : Keypad) (key : Key) (index : Nat) (down : Bool) :
    (keypad.setIndex index down).isDown key =
      if index = key.val then down else keypad.isDown key := by
  unfold setIndex Key.ofIndex?
  by_cases within : index < 16
  · rw [dif_pos within]
    dsimp only
    rw [isDown_set]
    simp only [Fin.ext_iff, eq_comm]
  · rw [dif_neg within, if_neg]
    intro same
    exact within (same ▸ key.isLt)

theorem ext_isDown {one other : Keypad} (same : ∀ key, one.isDown key = other.isDown key) :
    one = other := by
  apply Keypad.ext
  apply Vector.ext
  intro position within
  exact same ⟨position, within⟩

theorem lowest?_eq_none_iff {keypad : Keypad} :
    keypad.lowest? = none ↔ ∀ key, keypad.isDown key = false := by
  simp only [lowest?, List.find?_eq_none, List.mem_finRange, forall_const, Bool.not_eq_true]

theorem lowest?_eq_some_iff {keypad : Keypad} {key : Key} :
    keypad.lowest? = some key ↔
      keypad.isDown key = true ∧ ∀ other, keypad.isDown other = true → key ≤ other := by
  rw [lowest?, List.find?_eq_some_iff_getElem]
  refine and_congr_right fun down => ?_
  constructor
  · rintro ⟨position, within, same, earlier⟩ other held
    rw [List.getElem_finRange] at same
    have place : key.val = position := congrArg Fin.val same.symm
    apply Fin.le_def.mpr
    apply Nat.le_of_not_lt
    intro below
    have released := earlier other.val (place ▸ below)
    rw [List.getElem_finRange, Bool.not_eq_true'] at released
    exact Bool.false_ne_true (released.symm.trans held)
  · intro least
    have within : key.val < (List.finRange 16).length := by
      rw [List.length_finRange]
      exact key.isLt
    refine ⟨key.val, within, List.getElem_finRange within, ?_⟩
    intro earlier below
    rw [List.getElem_finRange, Bool.not_eq_true', ← Bool.not_eq_true]
    intro held
    exact Nat.not_lt_of_le (Fin.le_def.mp (least _ held)) below

end Keypad

end Chip8
