import Chip8.Emulator.History
import Chip8.Proofs.Effect

/-!
Calls and returns under the full table. A call puts the address after it on top of the active
frames, and only the matching return takes it off again.
-/

namespace Chip8

/-! ### One cycle -/

inductive Passage (machine : Machine) (step : Step Failure) : Prop
  | straight (stack : step.machine.stack = machine.stack)
      (ordinary : step.failure = none → machine.instruction ≠ .ok .leave ∧
        ∀ target, machine.instruction ≠ .ok (.call target)) : Passage machine step
  | entered (target : Address) (decoded : machine.instruction = .ok (.call target))
      (success : step.failure = none)
      (pushed : machine.stack.push (machine.counter + 2) = .ok step.machine.stack) :
      Passage machine step
  | returned (decoded : machine.instruction = .ok .leave) (success : step.failure = none)
      (popped : machine.stack.pop = .ok (step.machine.counter, step.machine.stack)) :
      Passage machine step

namespace Machine

theorem stack_of_effect {reading : Option Instruction} {machine : Machine} {step : Step Fault}
    (effect : Effect reading machine step) (stays : reading ≠ some .leave)
    (remains : ∀ target, reading ≠ some (.call target)) :
    step.machine.stack = machine.stack := by
  cases effect with
  | called target stack calls _ => exact absurd calls (remains target)
  | left address stack leaves _ => exact absurd leaves stays
  | _ => rfl

private theorem pop_of_leave (machine : Machine) {done : Step Fault}
    (carried : Instruction.leave.execute machine = done) (success : done.failure = none) :
    machine.stack.pop = .ok (done.machine.counter, done.machine.stack) := by
  rw [Instruction.execute] at carried
  cases popped : machine.stack.pop with
  | error fault =>
      rw [popped] at carried
      rw [← carried] at success
      cases success
  | ok result =>
      rw [popped] at carried
      rw [← carried]
      rfl

private theorem push_of_call (machine : Machine) {target : Address} {done : Step Fault}
    (carried : (Instruction.call target).execute machine = done) (success : done.failure = none) :
    machine.stack.push machine.counter = .ok done.machine.stack := by
  rw [Instruction.execute] at carried
  cases pushed : machine.stack.push machine.counter with
  | error fault =>
      rw [pushed] at carried
      rw [← carried] at success
      cases success
  | ok stack =>
      rw [pushed] at carried
      rw [← carried]
      rfl

private theorem passage_cycle (machine : Machine) : Passage machine (machine.cycle .standard) := by
  cases machine.course_cycle .standard with
  | unfetched fault _ outcome =>
      rw [outcome]
      exact .straight rfl (fun success => by cases success)
  | refused opcode fault _ _ outcome =>
      rw [outcome]
      exact .straight rfl (fun success => by cases success)
  | completed opcode done fetch carried success outcome =>
      have decoded := instruction_of_opcode fetch
      rw [RoutineTable.instruction?_standard] at carried
      rw [outcome]
      by_cases leaves : Instruction.ofOpcode? opcode = some .leave
      · rw [Instruction.decode_eq_ok_iff.mpr leaves] at decoded
        rw [leaves] at carried
        exact .returned decoded rfl (machine.skip.pop_of_leave carried success)
      · by_cases calls : ∃ target, Instruction.ofOpcode? opcode = some (.call target)
        · obtain ⟨target, reading⟩ := calls
          rw [Instruction.decode_eq_ok_iff.mpr reading] at decoded
          rw [reading] at carried
          exact .entered target decoded rfl (machine.skip.push_of_call carried success)
        · have remains (target : Address) : Instruction.ofOpcode? opcode ≠ some (.call target) :=
            fun reading => calls ⟨target, reading⟩
          have effect := machine.skip.effect_obey opcode (Instruction.ofOpcode? opcode)
          rw [carried] at effect
          have stack : done.machine.stack = machine.skip.stack :=
            stack_of_effect effect leaves remains
          refine .straight stack (fun _ => ?_)
          rw [decoded]
          constructor
          · intro same
            exact leaves (Instruction.decode_eq_ok_iff.mp same)
          · intro target same
            exact remains target (Instruction.decode_eq_ok_iff.mp same)

end Machine

/-! ### Cycles of an emulator -/

namespace Emulator

variable {emulator : Emulator} {older : List UInt16} {address : UInt16}

theorem machine_cycle (emulator : Emulator) :
    emulator.cycle.emulator.machine = (emulator.machine.cycle emulator.table).machine := rfl

theorem passage (full : emulator.table = .standard) :
    Passage emulator.machine (emulator.machine.cycle emulator.table) := by
  rw [full]
  exact emulator.machine.passage_cycle

private theorem push_cycle_of_call {target : Address} (full : emulator.table = .standard)
    (calls : emulator.machine.instruction = .ok (.call target))
    (success : emulator.cycle.reply = .done) :
    emulator.machine.stack.push (emulator.machine.counter + 2) =
      .ok emulator.cycle.emulator.machine.stack := by
  rw [cycle, reply_act_done_iff] at success
  cases passage full with
  | straight _ ordinary => exact absurd calls ((ordinary success).2 target)
  | entered _ _ _ pushed => exact pushed
  | returned decoded _ _ =>
      rw [decoded] at calls
      cases calls

private theorem pop_cycle_of_leave (full : emulator.table = .standard)
    (leaves : emulator.machine.instruction = .ok .leave)
    (success : emulator.cycle.reply = .done) :
    emulator.machine.stack.pop =
      .ok (emulator.cycle.emulator.machine.counter, emulator.cycle.emulator.machine.stack) := by
  rw [cycle, reply_act_done_iff] at success
  cases passage full with
  | straight _ ordinary => exact absurd leaves (ordinary success).1
  | entered target decoded _ _ =>
      rw [decoded] at leaves
      cases leaves
  | returned _ _ popped => exact popped

private theorem stack_cycle_of_neither (full : emulator.table = .standard)
    (remains : ∀ target, emulator.machine.instruction = .ok (.call target) →
      emulator.cycle.reply ≠ .done)
    (stays : emulator.machine.instruction = .ok .leave → emulator.cycle.reply ≠ .done) :
    emulator.cycle.emulator.machine.stack = emulator.machine.stack := by
  simp only [cycle, ne_eq, reply_act_done_iff] at remains stays
  cases passage full with
  | straight stack _ => exact stack
  | entered target decoded success _ => exact absurd success (remains target decoded)
  | returned decoded success _ => exact absurd success (stays decoded)

/-! ### Pending calls -/

/-- The call that followed the older frames and left a return address has not returned. -/
def Pending (older : List UInt16) (address : UInt16) (emulator : Emulator) : Prop :=
  older ++ [address] <+: emulator.machine.stack.frames

theorem length_lt_of_pending (pending : emulator.Pending older address) :
    older.length < emulator.machine.stack.depth :=
  CallStack.lt_depth_of_prefix pending

private theorem take_of_pending (pending : emulator.Pending older address) :
    emulator.machine.stack.frames.take older.length = older := by
  obtain ⟨newer, same⟩ := pending
  rw [← same, List.append_assoc, List.take_left]

/-- As long as the stack stays deeper than at the call, the call stays pending. -/
theorem pending_cycle (full : emulator.table = .standard) (pending : emulator.Pending older address)
    (deeper : emulator.cycle.emulator.machine.stack.depth ≠ older.length) :
    emulator.cycle.emulator.Pending older address := by
  rw [machine_cycle] at deeper
  rw [Pending, machine_cycle]
  cases passage full with
  | straight stack _ =>
      rw [stack]
      exact pending
  | entered target _ _ pushed =>
      rw [CallStack.frames_of_push pushed]
      exact List.IsPrefix.trans pending (List.prefix_append _ _)
  | returned _ _ popped =>
      rw [Pending, CallStack.frames_of_pop popped, List.prefix_concat_iff] at pending
      rcases pending with matched | inner
      · have same := congrArg List.length (List.append_inj_left' matched rfl)
        rw [CallStack.frames_length] at same
        exact absurd same.symm deeper
      · exact inner

/-- The cycle that takes the stack back to the depth of the call is its return. -/
theorem returned_of_depth_eq (full : emulator.table = .standard)
    (pending : emulator.Pending older address)
    (back : emulator.cycle.emulator.machine.stack.depth = older.length) :
    emulator.machine.instruction = .ok .leave ∧ emulator.cycle.reply = .done ∧
      emulator.cycle.emulator.machine.counter = address := by
  have above := length_lt_of_pending pending
  rw [machine_cycle] at back
  cases passage full with
  | straight stack _ =>
      rw [stack] at back
      omega
  | entered target _ _ pushed =>
      rw [CallStack.depth_of_push pushed] at back
      omega
  | returned decoded success popped =>
      rw [Pending, CallStack.frames_of_pop popped, List.prefix_concat_iff] at pending
      rcases pending with matched | inner
      · have top := List.singleton_inj.mp (List.append_inj_right' matched rfl)
        exact ⟨decoded, reply_act_done_iff.mpr success, top.symm⟩
      · have bound := CallStack.lt_depth_of_prefix inner
        omega

private theorem pending_after {between : List Call} (full : emulator.table = .standard)
    (single : ∀ call ∈ between, call ≠ .reset ∧ ∀ count, call ≠ .frame count)
    (deeper : ∀ earlier, earlier ++ [.cycle] <+: between →
      (emulator.after (earlier ++ [.cycle])).machine.stack.depth ≠ older.length)
    (pending : emulator.Pending older address) :
    (emulator.after between).Pending older address := by
  induction between generalizing emulator with
  | nil => exact pending
  | cons call rest inductionHypothesis =>
      have next : (emulator.perform call).emulator.Pending older address := by
        by_cases runs : call.runs = true
        · cases call with
          | cycle => exact pending_cycle full pending (deeper [] ⟨rest, rfl⟩)
          | frame count => exact absurd rfl ((single _ List.mem_cons_self).2 count)
          | _ => cases runs
        · have idle := Bool.eq_false_of_not_eq_true runs
          rw [Pending, stack_perform idle (single call List.mem_cons_self).1]
          exact pending
      apply inductionHypothesis
      · rw [table_perform, full]
      · intro later member
        exact single later (List.mem_cons_of_mem call member)
      · intro earlier first
        exact deeper (call :: earlier) (List.cons_prefix_cons.mpr ⟨rfl, first⟩)
      · exact next

/-- A cycle changes the depth by its call or return alone. Once a call has been carried out, the
first later cycle that takes the stack back to the depth of the call is a return to the address
after it; until then the stack stays deeper, and the older frames stay as they were. A frame counts
as the cycles that it runs. -/
theorem call_return_discipline {emulator : Emulator} (full : emulator.table = .standard) :
    let depth (reached : Emulator) : Nat := reached.machine.stack.depth
    let entered := emulator.cycle.emulator
    (∀ target, emulator.machine.instruction = .ok (.call target) →
        emulator.cycle.reply = .done → depth entered = depth emulator + 1) ∧
      (emulator.machine.instruction = .ok .leave →
        emulator.cycle.reply = .done → depth entered + 1 = depth emulator) ∧
      ((∀ target, emulator.machine.instruction = .ok (.call target) →
          emulator.cycle.reply ≠ .done) →
        (emulator.machine.instruction = .ok .leave → emulator.cycle.reply ≠ .done) →
        depth entered = depth emulator) ∧
      (∀ count, ∃ cycles ≤ count, (emulator.perform (.frame count)).emulator =
        emulator.after (List.replicate cycles .cycle)) ∧
      ∀ target, emulator.machine.instruction = .ok (.call target) →
        emulator.cycle.reply = .done →
        ∀ between : List Call,
          (∀ call ∈ between, call ≠ .reset ∧ ∀ count, call ≠ .frame count) →
          (∀ earlier, earlier ++ [.cycle] <+: between →
            depth (entered.after (earlier ++ [.cycle])) ≠ depth emulator) →
          (∀ reached, reached <+: between →
            depth emulator + 1 ≤ depth (entered.after reached) ∧
              (entered.after reached).machine.stack.frames.take (depth emulator) =
                emulator.machine.stack.frames) ∧
            let last := entered.after between
            depth last.cycle.emulator = depth emulator →
              last.machine.instruction = .ok .leave ∧ last.cycle.reply = .done ∧
                last.cycle.emulator.machine.counter.toNat =
                  emulator.machine.counter.toNat + 2 := by
  intro depth entered
  refine ⟨?_, ?_, ?_, exists_cycles_of_frame emulator, ?_⟩
  · intro target calls success
    exact CallStack.depth_of_push (push_cycle_of_call full calls success)
  · intro leaves success
    exact (CallStack.depth_of_pop (pop_cycle_of_leave full leaves success)).symm
  · intro remains stays
    exact congrArg CallStack.depth (stack_cycle_of_neither full remains stays)
  intro target calls success between single deeper
  have length : emulator.machine.stack.frames.length = depth emulator :=
    emulator.machine.stack.frames_length
  have enteredFull : entered.table = .standard := full
  have opened : entered.Pending emulator.machine.stack.frames (emulator.machine.counter + 2) := by
    rw [Pending, CallStack.frames_of_push (push_cycle_of_call full calls success)]
  have pending (reached : List Call) (first : reached <+: between) :
      (entered.after reached).Pending emulator.machine.stack.frames
        (emulator.machine.counter + 2) := by
    apply pending_after enteredFull
    · intro call member
      exact single call (first.subset member)
    · intro earlier inside
      rw [length]
      exact deeper earlier (inside.trans first)
    · exact opened
  refine ⟨?_, ?_⟩
  · intro reached first
    have within := length_lt_of_pending (pending reached first)
    have older := take_of_pending (pending reached first)
    rw [length] at within older
    exact ⟨within, older⟩
  · intro last back
    have lastFull : last.table = .standard := by rw [table_after, enteredFull]
    obtain ⟨leaves, done, counter⟩ := returned_of_depth_eq lastFull
      (pending between (List.prefix_refl between)) (back.trans length.symm)
    refine ⟨leaves, done, ?_⟩
    have inside := Machine.counter_le_of_instruction calls
    rw [counter]
    exact emulator.machine.counter_skip (by omega)

theorem call_return_discipline_empty_subroutine :
    let calling := holding [0x22, 0x04, 0x00, 0x00, 0x00, 0xEE]
    let returning := calling.cycle.emulator
    calling.table = .standard ∧
      calling.machine.instruction = .ok (.call ⟨0x204, by decide⟩) ∧
      returning.machine.instruction = .ok .leave ∧
      returning.cycle.emulator.machine.counter.toNat = 0x202 := by
  intro calling returning
  have called : calling.machine.opcode = .ok (Opcode.ofBytes 0x22 0x04) :=
    Machine.opcode_of_bytes (Memory.getElem?_overwrite_offset _ 0 (by decide) rfl)
      (Memory.getElem?_overwrite_offset _ 1 (by decide) rfl)
  have decoded : calling.machine.instruction = .ok (.call ⟨0x204, by decide⟩) := by
    rw [Machine.instruction_of_opcode called]
    rfl
  have done : calling.cycle.reply = .done := by
    rw [cycle, reply_act_done_iff, Machine.cycle, called]
    rfl
  have arrived : returning =
      { calling with
        machine :=
          { calling.machine with
            counter := 0x204
            stack :=
              { slots := CallStack.empty.slots.set 0 0x202
                depth := 1
                depth_le := by decide } } } := by
    unfold returning
    rw [cycle, act, Machine.cycle, called]
    rfl
  have left : returning.machine.opcode = .ok (Opcode.ofBytes 0x00 0xEE) := by
    rw [arrived]
    exact Machine.opcode_of_bytes (Memory.getElem?_overwrite_offset _ 4 (by decide) rfl)
      (Memory.getElem?_overwrite_offset _ 5 (by decide) rfl)
  have back : returning.cycle.emulator.machine.stack.depth = calling.machine.stack.depth := by
    rw [cycle, act, Machine.cycle, left, arrived]
    rfl
  have full : calling.table = .standard := rfl
  obtain ⟨_, _, _, _, discipline⟩ := call_return_discipline full
  obtain ⟨_, leaves⟩ := discipline _ decoded done [] (by simp) (by simp)
  obtain ⟨leave, _, counter⟩ := leaves back
  exact ⟨full, decoded, leave, counter⟩

end Emulator

end Chip8
