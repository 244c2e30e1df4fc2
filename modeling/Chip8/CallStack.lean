import Chip8.Fault

/-!
Return addresses of the active subroutine calls. The slots are fixed; those at and above
the depth hold leftovers that no operation reads.
-/

namespace Chip8

@[ext]
structure CallStack where
  slots : Vector UInt16 callCapacity
  depth : Nat
  depth_le : depth ≤ callCapacity
  deriving DecidableEq

namespace CallStack

def empty : CallStack :=
  { slots := Vector.replicate callCapacity 0
    depth := 0
    depth_le := Nat.zero_le _ }

/-- Wipes the slots too, so that nothing is left over. -/
def clear (stack : CallStack) : CallStack :=
  { stack with
    slots := Vector.replicate callCapacity 0
    depth := 0
    depth_le := Nat.zero_le _ }

/-- The active return addresses, oldest first. -/
def frames (stack : CallStack) : List UInt16 := stack.slots.toList.take stack.depth

def push (stack : CallStack) (address : UInt16) : Except Fault CallStack :=
  if room : stack.depth < callCapacity then
    .ok
      { slots := stack.slots.set stack.depth address
        depth := stack.depth + 1
        depth_le := room }
  else .error (.stackOverflow stack.depth)

def pop (stack : CallStack) : Except Fault (UInt16 × CallStack) :=
  if active : 0 < stack.depth then
    have within : stack.depth - 1 < callCapacity := by
      have bound := stack.depth_le
      omega
    .ok (stack.slots[stack.depth - 1],
      { slots := stack.slots
        depth := stack.depth - 1
        depth_le := Nat.le_of_lt within })
  else .error .stackUnderflow

theorem frames_length (stack : CallStack) : stack.frames.length = stack.depth := by
  have bound := stack.depth_le
  simp [frames]
  omega

theorem pop_of_top {stack : CallStack} {address : UInt16} (active : 0 < stack.depth)
    (top : stack.slots[stack.depth - 1]? = some address) :
    ∃ popped, stack.pop = .ok (address, popped) ∧ popped.slots = stack.slots ∧
      popped.depth = stack.depth - 1 := by
  obtain ⟨within, same⟩ := Vector.getElem?_eq_some_iff.mp top
  subst same
  exact ⟨_, dif_pos active, rfl, rfl⟩

theorem depth_lt_of_push {stack pushed : CallStack} {address : UInt16}
    (ok : stack.push address = .ok pushed) : stack.depth < callCapacity := by
  unfold push at ok
  split at ok
  · next room => exact room
  · cases ok

theorem push_eq_error_iff {stack : CallStack} {address : UInt16} {fault : Fault} :
    stack.push address = .error fault ↔
      stack.depth = callCapacity ∧ fault = .stackOverflow callCapacity := by
  have bound := stack.depth_le
  constructor
  · intro failed
    unfold push at failed
    split at failed
    · cases failed
    · next full =>
        have same : stack.depth = callCapacity := by omega
        cases failed
        exact ⟨same, by rw [same]⟩
  · rintro ⟨full, cause⟩
    rw [push, dif_neg (Nat.not_lt_of_le (Nat.le_of_eq full.symm)), cause, full]

theorem pop_eq_error_iff {stack : CallStack} {fault : Fault} :
    stack.pop = .error fault ↔ stack.depth = 0 ∧ fault = .stackUnderflow := by
  constructor
  · intro failed
    unfold pop at failed
    split at failed
    · cases failed
    · next inactive =>
        cases failed
        exact ⟨Nat.eq_zero_of_not_pos inactive, rfl⟩
  · rintro ⟨inactive, cause⟩
    rw [pop, dif_neg (Nat.not_lt_of_le (Nat.le_of_eq inactive)), cause]

theorem frames_of_push {stack pushed : CallStack} {address : UInt16}
    (ok : stack.push address = .ok pushed) : pushed.frames = stack.frames ++ [address] := by
  unfold push at ok
  split at ok
  · next room =>
      cases ok
      have lengthEq : stack.slots.toList.length = callCapacity := by simp
      simp only [frames, Vector.toList_set]
      rw [List.take_succ_eq_append_getElem (by simpa [lengthEq] using room)]
      simp only [List.take_set, List.getElem_set_self]
      rw [List.set_eq_of_length_le (by rw [List.length_take]; omega)]
  · cases ok

theorem frames_of_pop {stack popped : CallStack} {address : UInt16}
    (ok : stack.pop = .ok (address, popped)) : stack.frames = popped.frames ++ [address] := by
  unfold pop at ok
  split at ok
  · next active =>
      cases ok
      have bound := stack.depth_le
      simp only [frames]
      obtain ⟨depth, same⟩ := Nat.exists_eq_succ_of_ne_zero (Nat.ne_of_gt active)
      simp only [same, Nat.succ_sub_one]
      rw [List.take_succ_eq_append_getElem (by simp; omega)]
      simp
  · cases ok

/-- Slots at and above the depth do not count. -/
theorem frames_congr {one other : CallStack} (depth : one.depth = other.depth)
    (slots : ∀ slot < one.depth, one.slots[slot]? = other.slots[slot]?) :
    one.frames = other.frames := by
  apply List.ext_getElem?
  intro slot
  rw [frames, frames, List.getElem?_take, List.getElem?_take, ← depth]
  split
  · next active =>
      rw [Vector.getElem?_toList, Vector.getElem?_toList]
      exact slots slot active
  · rfl

theorem depth_of_push {stack changed : CallStack} {address : UInt16}
    (pushed : stack.push address = .ok changed) : changed.depth = stack.depth + 1 := by
  have grown := congrArg List.length (frames_of_push pushed)
  rw [List.length_append, frames_length, frames_length, List.length_singleton] at grown
  exact grown

theorem depth_of_pop {stack changed : CallStack} {address : UInt16}
    (popped : stack.pop = .ok (address, changed)) : stack.depth = changed.depth + 1 := by
  have shrunk := congrArg List.length (frames_of_pop popped)
  rw [List.length_append, frames_length, frames_length, List.length_singleton] at shrunk
  exact shrunk

theorem lt_depth_of_prefix {stack : CallStack} {older : List UInt16} {address : UInt16}
    (kept : older ++ [address] <+: stack.frames) : older.length < stack.depth := by
  have bound := kept.length_le
  rw [List.length_append, List.length_singleton, frames_length] at bound
  exact bound

end CallStack

end Chip8
