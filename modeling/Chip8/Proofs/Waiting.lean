import Chip8.Proofs.Painting
import Chip8.Proofs.Timers
import Chip8.Proofs.Writes
import Mathlib.Data.Finset.Max

/-!
Waiting. A machine that asks for a key while none is down, or that jumps to where it stands, is
after any number of cycles what it was, but for its timers. Once keys are down, the next cycle takes
the lowest of them and goes on.
-/

namespace Chip8

def Countdown.elapsed (timer : Countdown) (count : Nat) : Countdown :=
  { value := UInt8.ofNat (timer.value.toNat - count) }

theorem Countdown.toNat_elapsed (timer : Countdown) (count : Nat) :
    (timer.elapsed count).value.toNat = timer.value.toNat - count :=
  UInt8.toNat_ofNat_of_lt' (Nat.lt_of_le_of_lt (Nat.sub_le _ count) timer.value.toNat_lt)

private theorem Countdown.elapsed_zero (timer : Countdown) : timer.elapsed 0 = timer :=
  Countdown.ext (UInt8.toNat_inj.mp (timer.toNat_elapsed 0))

private theorem Countdown.elapsed_succ (timer : Countdown) (count : Nat) :
    timer.elapsed (count + 1) = timer.tick.1.elapsed count := by
  rw [elapsed, elapsed, toNat_tick, Nat.sub_sub, Nat.add_comm count 1]

namespace Machine

def ComesTo (machine : Machine) (opcode : Opcode) : Prop :=
  ∃ high low, machine.memory.cells[machine.counter.toNat]? = some high ∧
    machine.memory.cells[machine.counter.toNat + 1]? = some low ∧
    Opcode.ofBytes high low = opcode

/-- A machine asks for a key while none is down, or jumps to where it stands. -/
inductive Waits (machine : Machine) : Prop
  | forKey (x : Register) (comes : machine.ComesTo (.ofDigits 0xF x 0x0 0xA))
      (released : ∀ key, machine.keypad.isDown key = false) : Waits machine
  | inPlace (opcode : Opcode) (comes : machine.ComesTo opcode)
      (family : opcode.family.val = 0x1)
      (target : opcode.address.val = machine.counter.toNat) : Waits machine

/-- The machine with nothing changed but its timers, by a number of ticks. -/
def elapsed (machine : Machine) (count : Nat) : Machine :=
  { machine with
    delay := machine.delay.elapsed count
    sound := machine.sound.elapsed count }

variable {machine : Machine}

private theorem elapsed_zero : machine.elapsed 0 = machine := by
  rw [elapsed, Countdown.elapsed_zero, Countdown.elapsed_zero]

private theorem elapsed_succ (count : Nat) :
    machine.elapsed (count + 1) = machine.tick.machine.elapsed count := by
  rw [elapsed, Countdown.elapsed_succ, Countdown.elapsed_succ]
  rfl

theorem ComesTo.fetch {opcode : Opcode} (comes : machine.ComesTo opcode) :
    machine.opcode = .ok opcode := by
  obtain ⟨high, low, first, second, same⟩ := comes
  rw [opcode_of_bytes first second, same]

private theorem Waits.tick (waits : machine.Waits) : machine.tick.machine.Waits := by
  cases waits with
  | forKey x comes released => exact .forKey x comes released
  | inPlace opcode comes family target => exact .inPlace opcode comes family target

private theorem Waits.dispatch (waits : machine.Waits) :
    ∃ opcode, machine.ComesTo opcode ∧
      RoutineTable.standard.dispatch opcode machine.skip = .quiet machine := by
  cases waits with
  | forKey x comes released =>
      refine ⟨_, comes, ?_⟩
      have none : machine.skip.keypad.lowest? = none := Keypad.lowest?_eq_none_iff.mpr released
      have back : machine.skip.counter - 2 = machine.counter := UInt16.add_sub_cancel _ _
      rw [RoutineTable.dispatch_auxiliary .awaitKey x rfl, Auxiliary.execute, none]
      simp only [back]
      rfl
  | inPlace opcode comes family target =>
      refine ⟨opcode, comes, ?_⟩
      rw [RoutineTable.dispatch_standard (Opcode.ofOpcode?_of_jump family), Instruction.execute,
        jumpTo, target, UInt16.ofNat_toNat]
      rfl

private theorem cycle_of_quiet {opcode : Opcode} {reached : Machine}
    (comes : machine.ComesTo opcode)
    (outcome : RoutineTable.standard.dispatch opcode machine.skip = .quiet reached) :
    machine.cycle .standard =
      reached.tick.after [.noticed (.executing machine.counter opcode)] := by
  rw [cycle, comes.fetch]
  simp only [execute, outcome]
  rfl

private theorem cycle_of_pressed {x : Register} {key : Key}
    (comes : machine.ComesTo (.ofDigits 0xF x 0x0 0xA))
    (lowest : machine.keypad.lowest? = some key) :
    machine.cycle .standard = (machine.skip.setNumber x key.val).tick.after
      [.noticed (.executing machine.counter (.ofDigits 0xF x 0x0 0xA))] := by
  apply cycle_of_quiet comes
  have pressed : machine.skip.keypad.lowest? = some key := lowest
  rw [RoutineTable.dispatch_auxiliary .awaitKey x rfl, Auxiliary.execute, pressed]

structure Waited (machine : Machine) (count : Nat) (step : Step Failure) : Prop where
  success : step.failure = none
  machine_eq : step.machine = machine.elapsed count
  screens : step.screens = []
  stops : step.signals.filter Signal.stops =
    if 1 ≤ machine.sound.value.toNat ∧ machine.sound.value.toNat ≤ count then [.buzzerStopped]
    else []

theorem Waited.none (machine : Machine) : machine.Waited 0 (.quiet machine) := by
  refine ⟨rfl, elapsed_zero.symm, rfl, (if_neg ?_).symm⟩
  rintro ⟨running, expired⟩
  exact Nat.not_succ_le_zero 0 (Nat.le_trans running expired)

theorem Waited.cons {count : Nat} {rest : Step Failure}
    (waited : machine.tick.machine.Waited count rest) (notice : Notice) :
    machine.Waited (count + 1) (rest.after (.noticed notice :: machine.tick.signals)) := by
  refine ⟨waited.success, waited.machine_eq.trans (elapsed_succ count).symm, ?_, ?_⟩
  · have ticked : machine.tick.signals.filterMap Signal.screen? = [] := machine.screens_tick []
    have rests : rest.signals.filterMap Signal.screen? = [] := waited.screens
    simp only [Step.screens, Step.after, List.cons_append, List.filterMap_cons, Signal.screen?,
      List.filterMap_append, ticked, rests, List.append_nil]
  · have left : machine.tick.machine.sound.value.toNat = machine.sound.value.toNat - 1 :=
      machine.sound.toNat_tick
    have rests := waited.stops
    rw [left] at rests
    have unheard : ¬Signal.stops (.noticed notice) = true := Bool.false_ne_true
    have last : (machine.sound.value == 1) = true ↔ machine.sound.value.toNat = 1 := by
      rw [beq_iff_eq, ← UInt8.toNat_inj]
      rfl
    simp only [Step.after, List.cons_append, List.filter_cons_of_neg unheard, List.filter_append,
      stops_tick, rests, last]
    by_cases ends : machine.sound.value.toNat = 1
    · rw [if_pos ends, if_neg (by omega), if_pos (by omega)]
      rfl
    · rw [if_neg ends, List.nil_append]
      exact if_congr (by omega) rfl rfl

private theorem Waits.frame (waits : machine.Waits) (count : Nat) :
    machine.Waited count (machine.frame .standard count) := by
  induction count generalizing machine with
  | zero => exact .none machine
  | succ count inductionHypothesis =>
      obtain ⟨opcode, comes, outcome⟩ := waits.dispatch
      rw [frame_succ, cycle_of_quiet comes outcome]
      exact (inductionHypothesis waits.tick).cons _

end Machine

namespace Emulator

/-- Calls set single keys and nothing else, and in the end certain keys are down and no others. -/
def Arranges (emulator : Emulator) (calls : List Call) (keys : Finset Key) : Prop :=
  (∀ call ∈ calls, ∃ index down, call = .setKey index down) ∧
    ∀ key, (emulator.after calls).machine.keypad.isDown key = true ↔ key ∈ keys

private theorem isDown_after_setKeys (keys : Finset Key) (listed : List Key) (emulator : Emulator)
    (key : Key) :
    (emulator.after (listed.map fun key =>
      .setKey key.val (decide (key ∈ keys)))).machine.keypad.isDown key =
        if key ∈ listed then decide (key ∈ keys) else emulator.machine.keypad.isDown key := by
  induction listed generalizing emulator with
  | nil => rfl
  | cons first rest inductionHypothesis =>
      rw [List.map_cons, after, inductionHypothesis, isDown_perform, Call.keyState?]
      by_cases later : key ∈ rest
      · rw [if_pos later, if_pos (List.mem_cons_of_mem first later)]
      · rw [if_neg later]
        by_cases same : key = first
        · subst same
          rw [if_pos rfl, if_pos List.mem_cons_self]
          rfl
        · have other : ¬first.val = key.val := fun equal => same (Fin.ext equal.symm)
          rw [if_neg other, if_neg (by simp [same, later])]
          rfl

private theorem exists_arranges (emulator : Emulator) (keys : Finset Key) :
    ∃ calls, emulator.Arranges calls keys := by
  refine ⟨(List.finRange 16).map fun key => .setKey key.val (decide (key ∈ keys)), ?_, ?_⟩
  · intro call member
    obtain ⟨key, _, same⟩ := List.mem_map.mp member
    exact ⟨_, _, same.symm⟩
  · intro key
    rw [isDown_after_setKeys, if_pos (List.mem_finRange key), decide_eq_true_iff]

/-- Setting keys changes nothing but the keypad. -/
theorem Arranges.after_eq {emulator : Emulator} {calls : List Call} {keys : Finset Key}
    (arranges : emulator.Arranges calls keys) :
    emulator.after calls =
      { emulator with
        machine :=
          { emulator.machine with keypad := (emulator.after calls).machine.keypad } } := by
  apply after_preserves fun reached => reached =
    { emulator with machine := { emulator.machine with keypad := reached.machine.keypad } }
  · intro reached call member same
    obtain ⟨index, down, setting⟩ := arranges.1 call member
    rw [setting, same]
    rfl
  · rfl

private theorem Arranges.lowest? {emulator : Emulator} {calls : List Call} {keys : Finset Key}
    (arranges : emulator.Arranges calls keys) (nonempty : keys.Nonempty) :
    (emulator.after calls).machine.keypad.lowest? = some (keys.min' nonempty) := by
  apply Keypad.lowest?_eq_some_iff.mpr
  refine ⟨(arranges.2 _).mpr (keys.min'_mem nonempty), ?_⟩
  intro other down
  exact keys.min'_le other ((arranges.2 other).mp down)

/-- A key that is down ends the wait within one cycle, and stays down. -/
theorem perform_cycle_of_pressed {emulator : Emulator} (full : emulator.table = .standard)
    {x : Register} {key : Key} (comes : emulator.machine.ComesTo (.ofDigits 0xF x 0x0 0xA))
    (lowest : emulator.machine.keypad.lowest? = some key) :
    let next := emulator.perform .cycle
    next.reply = .done ∧ next.emulator.machine.register x = UInt8.ofNat key.val ∧
      next.emulator.machine.counter.toNat = emulator.machine.counter.toNat + 2 ∧
      next.emulator.machine.keypad = emulator.machine.keypad := by
  intro next
  have step := Machine.cycle_of_pressed comes lowest
  rw [← full] at step
  have machine : next.emulator.machine = _ := congrArg Step.machine step
  have bound : emulator.machine.counter.toNat ≤ 0xFFE :=
    Machine.counter_le_of_opcode comes.fetch
  rw [machine]
  refine ⟨reply_act_done_iff.mpr (congrArg Step.failure step), ?_, ?_, rfl⟩
  · exact (emulator.machine.skip.register_setRegister x x _).trans (if_pos rfl)
  · exact emulator.machine.counter_skip (by omega)

/-- An emulator that waits is stable. Any number of cycles succeeds and changes nothing but the two
timers, which lose that number as far as they go. No screen is shown, and the end of the sound is
told once if it lies within these cycles and never otherwise. If it waits for a key, then any keys
can be put down, and the next cycle stores the lowest of them, goes on to the next instruction and
leaves the keypad alone. -/
theorem waiting_is_stable {emulator : Emulator} (full : emulator.table = .standard)
    (waits : emulator.machine.Waits) (count : Nat) :
    let before := emulator.machine
    let response := emulator.perform (.frame count)
    let waited := response.emulator
    response.reply = .done ∧
      waited =
        { emulator with
          machine :=
            { before with
              delay := waited.machine.delay
              sound := waited.machine.sound } } ∧
      (waited.machine.delay.value.toNat : Int) = max (before.delay.value.toNat - count) 0 ∧
      (waited.machine.sound.value.toNat : Int) = max (before.sound.value.toNat - count) 0 ∧
      response.outputs.filter Output.draws = [] ∧
      response.outputs.filterMap Output.buzzed? =
        (if 1 ≤ before.sound.value.toNat ∧ before.sound.value.toNat ≤ count then
          emulator.buzzerObserver.toList
        else []) ∧
      ∀ x, before.ComesTo (.ofDigits 0xF x 0x0 0xA) →
        ∀ (keys : Finset Key) (nonempty : keys.Nonempty),
          (∃ calls, waited.Arranges calls keys) ∧
            ∀ calls, waited.Arranges calls keys →
              let pressed := waited.after calls
              let next := pressed.perform .cycle
              next.reply = .done ∧
                next.emulator.machine.register x = UInt8.ofNat (keys.min' nonempty).val ∧
                next.emulator.machine.counter.toNat = before.counter.toNat + 2 ∧
                next.emulator.machine.keypad = pressed.machine.keypad := by
  intro before response waited
  have run := waits.frame count
  rw [← full] at run
  have reached : waited.machine = before.elapsed count := run.machine_eq
  have left (timer : Countdown) :
      ((timer.elapsed count).value.toNat : Int) = max (timer.value.toNat - count) 0 := by
    rw [timer.toNat_elapsed]
    omega
  have same : waited =
      { emulator with
        machine :=
          { before with
            delay := waited.machine.delay
            sound := waited.machine.sound } } := by
    refine Emulator.ext ?_ rfl rfl rfl rfl
    rw [reached]
    rfl
  refine ⟨reply_act_done_iff.mpr run.success, same, ?_, ?_, ?_, ?_, ?_⟩
  · rw [reached]
    exact left before.delay
  · rw [reached]
    exact left before.sound
  · refine (emulator.filter_draws_deliver _).trans ?_
    have screens : (before.frame emulator.table count).signals.filterMap Signal.screen? = [] :=
      run.screens
    rw [screens]
    rfl
  · refine (emulator.filterMap_buzzed_deliver _).trans ?_
    rw [run.stops]
    split
    · cases emulator.buzzerObserver <;> rfl
    · rfl
  · intro x comes keys nonempty
    refine ⟨waited.exists_arranges keys, fun calls arranges => ?_⟩
    intro pressed next
    have arranged : pressed = _ := arranges.after_eq
    have table : pressed.table = .standard := (waited.table_after calls).trans full
    have counter : pressed.machine.counter = before.counter := by
      rw [arranged, reached]
      rfl
    have asks : pressed.machine.ComesTo (.ofDigits 0xF x 0x0 0xA) := by
      rw [arranged, reached]
      exact comes
    rw [← counter]
    exact perform_cycle_of_pressed table asks (arranges.lowest? nonempty)

/-- The sound ends in the third of four cycles that wait for a key. -/
theorem waiting_is_stable_for_key :
    let silent := holding [0xF3, 0x0A]
    let emulator :=
      { silent with
        machine := { silent.machine with sound := { value := 3 } }
        buzzerObserver := some "buzzer" }
    let response := emulator.perform (.frame 4)
    emulator.table = .standard ∧ emulator.machine.Waits ∧ response.reply = .done ∧
      response.emulator.machine.sound.value.toNat = 0 ∧
      response.outputs.filterMap Output.buzzed? = ["buzzer"] := by
  intro silent emulator response
  have full : emulator.table = .standard := rfl
  have high : emulator.machine.memory.cells[0x200]? = some 0xF3 :=
    Memory.getElem?_overwrite_offset _ 0 (by decide) rfl
  have low : emulator.machine.memory.cells[0x201]? = some 0x0A :=
    Memory.getElem?_overwrite_offset _ 1 (by decide) rfl
  have waits : emulator.machine.Waits :=
    .forKey 3 ⟨0xF3, 0x0A, high, low, by decide⟩ Keypad.isDown_released
  obtain ⟨reply, _, _, sound, _, buzzed, _⟩ := waiting_is_stable full waits 4
  exact ⟨full, waits, reply, Int.natCast_inj.mp sound, buzzed⟩

end Emulator

end Chip8
