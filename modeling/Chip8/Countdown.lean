/-!
A timer that counts down to zero and rests there.
-/

namespace Chip8

@[ext]
structure Countdown where
  value : UInt8
  deriving DecidableEq, Repr

namespace Countdown

def stopped : Countdown :=
  { value := 0 }

def set (timer : Countdown) (value : UInt8) : Countdown := { timer with value := value }

/-- Counts down by one. The flag marks the step that reaches zero, and no other. -/
def tick (timer : Countdown) : Countdown × Bool :=
  if timer.value = 0 then (timer, false)
  else ({ value := timer.value - 1 }, timer.value == 1)

theorem tick_of_stopped {timer : Countdown} (stopped : timer.value = 0) :
    timer.tick = (timer, false) := by
  rw [tick, if_pos stopped]

theorem toNat_tick (timer : Countdown) : timer.tick.1.value.toNat = timer.value.toNat - 1 := by
  by_cases stopped : timer.value = 0
  · rw [tick_of_stopped stopped, stopped]
    rfl
  · have positive := UInt8.lt_iff_toNat_lt.mp (UInt8.pos_iff_ne_zero.mpr stopped)
    rw [tick, if_neg stopped]
    exact UInt8.toNat_sub_of_le _ _ (UInt8.le_iff_toNat_le.mpr positive)

theorem reaches_zero_tick (timer : Countdown) : timer.tick.2 = (timer.value == 1) := by
  by_cases stopped : timer.value = 0
  · rw [tick_of_stopped stopped, stopped]
    rfl
  · rw [tick, if_neg stopped]

end Countdown

end Chip8
