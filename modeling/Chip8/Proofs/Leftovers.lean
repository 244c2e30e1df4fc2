import Chip8.Machine.Operation
import Chip8.Proofs.Dependence
import Chip8.Proofs.Subroutine

/-!
The slots of the stack as a list of return addresses. A machine and its outline, which has a plain
list in place of the slots, give the same answers to the same operations. What a pop leaves behind
in its slot is no part of the outline, so no operation ever brings it back.
-/

namespace Chip8

/-! ### The list -/

namespace Lifo

/-- Appends an address, unless the list is as long as it may be. -/
def push (frames : List UInt16) (address : UInt16) : Except Fault (List UInt16) :=
  if frames.length < callCapacity then .ok (frames ++ [address])
  else .error (.stackOverflow callCapacity)

def pop (frames : List UInt16) : Except Fault (UInt16 × List UInt16) :=
  match frames.getLast? with
  | some address => .ok (address, frames.dropLast)
  | none => .error .stackUnderflow

end Lifo

namespace CallStack

theorem frames_eq_nil_iff {stack : CallStack} : stack.frames = [] ↔ stack.depth = 0 := by
  rw [← frames_length, List.length_eq_zero_iff]

theorem map_frames_push (stack : CallStack) (address : UInt16) :
    (stack.push address).map frames = Lifo.push stack.frames address := by
  rw [Lifo.push, frames_length]
  cases pushed : stack.push address with
  | error fault =>
      obtain ⟨full, cause⟩ := push_eq_error_iff.mp pushed
      rw [if_neg (Nat.not_lt_of_le (Nat.le_of_eq full.symm)), cause]
      rfl
  | ok changed =>
      rw [if_pos (depth_lt_of_push pushed), ← frames_of_push pushed]
      rfl

theorem map_frames_pop (stack : CallStack) :
    (stack.pop.map fun popped => (popped.1, popped.2.frames)) = Lifo.pop stack.frames := by
  cases popped : stack.pop with
  | error fault =>
      obtain ⟨inactive, cause⟩ := pop_eq_error_iff.mp popped
      rw [Lifo.pop, frames_eq_nil_iff.mpr inactive, cause]
      rfl
  | ok result =>
      simp only [Lifo.pop, frames_of_pop popped, List.getLast?_concat, List.dropLast_concat]
      rfl

end CallStack

/-! ### The machine with a list -/

/-- A machine with a plain list of return addresses, oldest first, in place of its stack. -/
structure Outline where
  rest : Machine
  frames : List UInt16

namespace Machine

def unstacked (machine : Machine) : Machine := { machine with stack := .empty }

def outline (machine : Machine) : Outline :=
  { rest := machine.unstacked
    frames := machine.stack.frames }

end Machine

namespace Outline

/-- Calls and returns work on the list, all other instructions on the rest. -/
def obey (outline : Outline) (opcode : Opcode) : Option Instruction → Outline × Answer
  | some .leave =>
      match Lifo.pop outline.frames with
      | .ok (address, frames) =>
          ({ rest := { outline.rest with counter := address }, frames := frames }, .done)
      | .error fault => (outline, .failed fault)
  | some (.call target) =>
      match Lifo.push outline.frames outline.rest.counter with
      | .ok frames => ({ rest := outline.rest.jumpTo target.val, frames := frames }, .done)
      | .error fault => (outline, .failed fault)
  | reading =>
      let step := outline.rest.obey opcode reading
      ({ outline with rest := step.machine }, step.answer)

def operate (outline : Outline) : Operation → Outline × Answer
  | .push address =>
      match Lifo.push outline.frames address with
      | .ok frames => ({ outline with frames := frames }, .done)
      | .error fault => (outline, .failed fault)
  | .pop =>
      match Lifo.pop outline.frames with
      | .ok (address, frames) => ({ outline with frames := frames }, .delivering address)
      | .error fault => (outline, .failed fault)
  | .skip => ({ outline with rest := outline.rest.skip }, .done)
  | .perform routine opcode => outline.obey opcode (routine.instruction? opcode)
  | .dispatch table opcode => outline.obey opcode (table.instruction? opcode)
  | .reset => ({ rest := outline.rest.reset, frames := [] }, .done)
  | .assign assignment => ({ outline with rest := assignment.apply outline.rest }, .done)

def undergo (outline : Outline) : List Operation → Outline × List Answer
  | [] => (outline, [])
  | operation :: rest =>
      let next := outline.operate operation
      let later := next.1.undergo rest
      (later.1, next.2 :: later.2)

end Outline

/-! ### One operation -/

namespace Machine

@[simp] theorem frames_outline (machine : Machine) :
    machine.outline.frames = machine.stack.frames := rfl

@[simp] theorem counter_outline (machine : Machine) :
    machine.outline.rest.counter = machine.counter := rfl

private theorem coincides_unstacked (machine : Machine) :
    machine.Coincides (· ≠ .stack) machine.unstacked :=
  { Coincides.refl (· ≠ .stack) machine with
    stack := fun impossible => absurd rfl impossible }

/-- Apart from calls and returns, no instruction reads or changes the stack. -/
theorem obey_unstacked (machine : Machine) (opcode : Opcode) {reading : Option Instruction}
    (stays : reading ≠ some .leave) (remains : ∀ target, reading ≠ some (.call target)) :
    machine.unstacked.obey opcode reading =
      { machine.obey opcode reading with
        machine := (machine.obey opcode reading).machine.unstacked } := by
  have steps : (machine.obey opcode reading).Coincides (· ≠ .stack)
      (machine.unstacked.obey opcode reading) := by
    apply machine.coincides_unstacked.obey
    rintro instruction same part read rfl
    cases Instruction.reads_of_mem read with
    | leave => exact stays same
    | call target => exact remains target same
  have stack : (machine.unstacked.obey opcode reading).machine.stack = .empty :=
    stack_of_effect (machine.unstacked.effect_obey opcode reading) stays remains
  refine Step.ext ?_ steps.signals.symm steps.failure.symm
  refine steps.machine.eq_of_stack.trans ?_
  rw [stack, unstacked]

theorem outline_obey (machine : Machine) (opcode : Opcode) (reading : Option Instruction) :
    machine.outline.obey opcode reading =
      ((machine.obey opcode reading).machine.outline, (machine.obey opcode reading).answer) := by
  by_cases leaves : reading = some .leave
  · subst leaves
    simp only [Outline.obey, frames_outline, ← CallStack.map_frames_pop, obey,
      Instruction.execute]
    cases machine.stack.pop <;> rfl
  · by_cases calls : ∃ target, reading = some (.call target)
    · obtain ⟨target, same⟩ := calls
      subst same
      simp only [Outline.obey, frames_outline, counter_outline, ← CallStack.map_frames_push, obey,
        Instruction.execute]
      cases machine.stack.push machine.counter <;> rfl
    · have remains (target : Address) : reading ≠ some (.call target) :=
        fun same => calls ⟨target, same⟩
      have ordinary : machine.outline.obey opcode reading =
          ({ machine.outline with rest := (machine.unstacked.obey opcode reading).machine },
            (machine.unstacked.obey opcode reading).answer) := by
        unfold Outline.obey
        split
        · exact absurd rfl leaves
        · exact absurd rfl (remains _)
        · rfl
      have stack : (machine.obey opcode reading).machine.stack = machine.stack :=
        stack_of_effect (machine.effect_obey opcode reading) leaves remains
      rw [ordinary, machine.obey_unstacked opcode leaves remains, outline, outline, stack]
      rfl

theorem outline_operate (machine : Machine) (operation : Operation) :
    machine.outline.operate operation =
      ((machine.operate operation).1.outline, (machine.operate operation).2) := by
  cases operation with
  | push address =>
      simp only [Outline.operate, frames_outline, ← CallStack.map_frames_push, operate]
      cases machine.stack.push address <;> rfl
  | pop =>
      simp only [Outline.operate, frames_outline, ← CallStack.map_frames_pop, operate]
      cases machine.stack.pop <;> rfl
  | skip => rfl
  | perform routine opcode =>
      simp only [Outline.operate, operate, Routine.perform_eq]
      exact machine.outline_obey opcode _
  | dispatch table opcode =>
      simp only [Outline.operate, operate, RoutineTable.dispatch_eq]
      exact machine.outline_obey opcode _
  | reset => rfl
  | assign assignment => cases assignment <;> rfl

/-! ### Any number of operations -/

theorem outline_undergo (machine : Machine) (operations : List Operation) :
    machine.outline.undergo operations =
      ((machine.undergo operations).1.outline, (machine.undergo operations).2) := by
  induction operations generalizing machine with
  | nil => rfl
  | cons operation rest inductionHypothesis =>
      rw [Outline.undergo, undergo, outline_operate, inductionHypothesis]

theorem outline_of_slots {machine : Machine} {stack : CallStack}
    (depth : stack.depth = machine.stack.depth)
    (slots : ∀ slot < machine.stack.depth, stack.slots[slot]? = machine.stack.slots[slot]?) :
    { machine with stack := stack }.outline = machine.outline := by
  have frames : stack.frames = machine.stack.frames :=
    CallStack.frames_congr depth fun slot active => slots slot (depth ▸ active)
  rw [outline, outline, frames]
  rfl

/-- The stack is a list of at most sixteen return addresses, to which a push appends and from which
a pop takes the last. The list and the rest of the machine decide what any operations do and give
back, so slots that are not active make no difference to them. -/
theorem stack_refines_list (machine : Machine) (operations : List Operation) :
    let reached := (machine.undergo operations).1
    let answers := (machine.undergo operations).2
    let frames := reached.stack.frames
    (reached.outline, answers) = machine.outline.undergo operations ∧
      (∀ address,
        let next := reached.operate (.push address)
        if frames.length < 16 then
          next.1.outline = { reached.outline with frames := frames ++ [address] } ∧
            next.2 = .done
        else next = (reached, .failed (.stackOverflow 16))) ∧
      (match frames.getLast? with
        | some address =>
            (reached.operate .pop).1.outline =
                { reached.outline with frames := frames.dropLast } ∧
              (reached.operate .pop).2 = .delivering address
        | none => reached.operate .pop = (reached, .failed .stackUnderflow)) ∧
      ∀ stack : CallStack, stack.depth = machine.stack.depth →
        (∀ slot < machine.stack.depth, stack.slots[slot]? = machine.stack.slots[slot]?) →
        let other := { machine with stack := stack }.undergo operations
        other.2 = answers ∧ other.1.outline = reached.outline := by
  intro reached answers frames
  refine ⟨(machine.outline_undergo operations).symm, ?_, ?_, ?_⟩
  · intro address next
    have law := reached.outline_operate (.push address)
    split
    · next room =>
        have pushed : Lifo.push reached.stack.frames address = .ok (frames ++ [address]) :=
          if_pos room
        simp only [Outline.operate, frames_outline, pushed] at law
        exact Prod.mk.inj law.symm
    · next crowded =>
        have bound := reached.stack.depth_le
        have full : reached.stack.depth = callCapacity := by
          rw [CallStack.frames_length] at crowded
          exact Nat.le_antisymm bound (Nat.le_of_not_lt crowded)
        simp only [next, operate, CallStack.push_eq_error_iff.mpr ⟨full, rfl⟩]
        rfl
  · have law := reached.outline_operate .pop
    cases last : frames.getLast? with
    | some address =>
        have popped : Lifo.pop reached.stack.frames = .ok (address, frames.dropLast) := by
          change reached.stack.frames.getLast? = _ at last
          rw [Lifo.pop, last]
        simp only [Outline.operate, frames_outline, popped] at law
        exact Prod.mk.inj law.symm
    | none =>
        have inactive := CallStack.frames_eq_nil_iff.mp (List.getLast?_eq_none_iff.mp last)
        simp only [operate, CallStack.pop_eq_error_iff.mpr ⟨inactive, rfl⟩]
  · intro stack depth slots other
    have outlines := outline_of_slots depth slots
    have one := machine.outline_undergo operations
    have two := { machine with stack := stack }.outline_undergo operations
    rw [outlines, one, Prod.mk.injEq] at two
    exact ⟨two.2.symm, two.1.symm⟩

/-- Slots that were never used, or still hold something, make no difference. -/
theorem stack_refines_list_empty :
    let machine := initial (.seeded 0)
    let stack : CallStack := { CallStack.empty with slots := Vector.replicate callCapacity 0x300 }
    let operations : List Operation := [.pop, .push 0x234, .pop]
    let other := { machine with stack := stack }.undergo operations
    stack.depth = machine.stack.depth ∧
      (∀ slot < machine.stack.depth, stack.slots[slot]? = machine.stack.slots[slot]?) ∧
      other.2 = (machine.undergo operations).2 ∧
      other.2 = [.failed .stackUnderflow, .done, .delivering 0x234] := by
  intro machine stack operations other
  have depth : stack.depth = machine.stack.depth := rfl
  have slots : ∀ slot < machine.stack.depth, stack.slots[slot]? = machine.stack.slots[slot]? :=
    fun _ impossible => absurd impossible (Nat.not_lt_zero _)
  obtain ⟨_, _, _, leftovers⟩ := machine.stack_refines_list operations
  exact ⟨depth, slots, (leftovers stack depth slots).1, rfl⟩

end Machine

end Chip8
