import Chip8.Emulator.Delivery
import Chip8.Machine.Operation
import Chip8.Proofs.View

/-!
Starting over. Whatever has been done to a machine, a reset leaves it as it was at power-up, and
only its supply of random bytes goes on. Of the supply nothing counts but the bytes that are still
to come, so from there on nothing tells the machine from a new one that has the same bytes ahead.
-/

namespace Chip8

/-! ### Bytes to come -/

namespace Entropy

def ahead (entropy : Entropy) : Entropy :=
  { bytes := fun position => entropy.bytes (position + entropy.used)
    used := 0 }

@[simp] theorem next_ahead (entropy : Entropy) : entropy.ahead.next = entropy.next :=
  congrArg entropy.bytes (Nat.zero_add entropy.used)

private theorem ahead_advance_ahead (entropy : Entropy) :
    entropy.ahead.advance.ahead = entropy.advance.ahead := by
  refine Entropy.ext (funext fun position => ?_) rfl
  exact congrArg entropy.bytes (Nat.succ_add position entropy.used)

end Entropy

def Machine.recounted (machine : Machine) : Machine :=
  { machine with entropy := machine.entropy.ahead }

/-! ### One instruction -/

section

variable (machine : Machine)

@[simp] theorem Machine.stack_recounted : machine.recounted.stack = machine.stack := rfl

@[simp] theorem Machine.counter_recounted : machine.recounted.counter = machine.counter := rfl

@[simp] theorem Machine.keypad_recounted : machine.recounted.keypad = machine.keypad := rfl

@[simp] theorem Machine.number_recounted (register : Register) :
    machine.recounted.number register = machine.number register := rfl

@[simp] theorem Machine.register_recounted (register : Register) :
    machine.recounted.register register = machine.register register := rfl

@[simp] theorem Machine.spanAtIndex_recounted (length : Nat) :
    machine.recounted.spanAtIndex length = machine.spanAtIndex length := rfl

@[simp] theorem Operand.value_recounted (operand : Operand) :
    operand.value machine.recounted = operand.value machine := by
  cases operand <;> rfl

end

private theorem Auxiliary.respects_recounted (operation : Auxiliary) (x : Register) :
    Respects Machine.recounted (operation.execute x) := by
  intro machine
  cases operation with
  | awaitKey =>
      simp only [execute, Machine.keypad_recounted]
      cases machine.keypad.lowest? <;> rfl
  | storeDecimal =>
      simp only [execute, Machine.spanAtIndex_recounted]
      cases machine.spanAtIndex 3 <;> rfl
  | saveRegisters =>
      simp only [execute, Machine.spanAtIndex_recounted]
      cases machine.spanAtIndex (x.val + 1) <;> rfl
  | restoreRegisters =>
      simp only [execute, Machine.spanAtIndex_recounted]
      cases machine.spanAtIndex (x.val + 1) <;> rfl
  | _ => rfl

/-- No instruction sees how many random bytes were used. -/
theorem Instruction.respects_recounted (instruction : Instruction) :
    Respects Machine.recounted fun machine => instruction.execute machine := by
  intro machine
  cases instruction with
  | leave =>
      simp only [execute, Machine.stack_recounted]
      cases machine.stack.pop <;> rfl
  | call target =>
      simp only [execute, Machine.stack_recounted, Machine.counter_recounted]
      cases machine.stack.push machine.counter <;> rfl
  | skipIfEqual x operand =>
      simp only [execute, Machine.register_recounted, Operand.value_recounted]
      split <;> rfl
  | skipUnlessEqual x operand =>
      simp only [execute, Machine.register_recounted, Operand.value_recounted]
      split <;> rfl
  | arithmetic operation x y =>
      simp only [execute, Arithmetic.execute, Machine.number_recounted]
      cases operation.flag? (machine.number x) (machine.number y) <;> rfl
  | random x mask =>
      have next : machine.recounted.entropy.next = machine.entropy.next :=
        machine.entropy.next_ahead
      have advance : machine.recounted.entropy.advance.ahead = machine.entropy.advance.ahead :=
        machine.entropy.ahead_advance_ahead
      simp only [execute, next]
      exact congrArg
        (fun supply => Step.quiet
          { machine.setRegister x (machine.entropy.next &&& mask) with entropy := supply }) advance
  | draw x y height =>
      simp only [execute, Machine.spanAtIndex_recounted]
      cases machine.spanAtIndex height.val <;> rfl
  | skipOnKey x down =>
      have same : machine.recounted.keypad.isDown (Key.ofByte (machine.recounted.register x)) =
          machine.keypad.isDown (Key.ofByte (machine.register x)) := rfl
      by_cases held : machine.keypad.isDown (Key.ofByte (machine.register x)) = down
      · simp only [execute, if_pos held, if_pos (same.trans held)]
        rfl
      · simp only [execute, if_neg held, if_neg fun seen => held (same.symm.trans seen)]
        rfl
  | auxiliary operation x => exact operation.respects_recounted x machine
  | _ => rfl

theorem Machine.transparent_recounted : Transparent recounted :=
  { opcode := fun _ => rfl
    counter := fun _ => rfl
    skip := fun _ => rfl
    idempotent := fun _ => rfl
    tick := fun _ => rfl
    execute := Instruction.respects_recounted }

/-! ### Machines on their own -/

namespace Machine

/-- Every store is back at power-up. -/
theorem reset_eq_initial (machine : Machine) : machine.reset = initial machine.entropy := rfl

theorem recounted_initial {one other : Entropy} (same : one.ahead = other.ahead) :
    (initial one).recounted = (initial other).recounted :=
  congrArg initial same

private theorem operate_recounted (machine : Machine) (operation : Operation) :
    (machine.recounted.operate operation).1.recounted =
        (machine.operate operation).1.recounted ∧
      (machine.recounted.operate operation).2 = (machine.operate operation).2 := by
  have carried (opcode : Opcode) (reading : Option Instruction) :
      (machine.recounted.obey opcode reading).machine.recounted =
          (machine.obey opcode reading).machine.recounted ∧
        (machine.recounted.obey opcode reading).answer =
          (machine.obey opcode reading).answer := by
    have steps := transparent_recounted.obey opcode reading machine
    refine ⟨Step.machine_of_through steps, ?_⟩
    simp only [Step.answer, Step.signals_of_through steps, Step.failure_of_through steps]
  cases operation with
  | push address =>
      simp only [operate, stack_recounted]
      cases machine.stack.push address <;> exact ⟨rfl, rfl⟩
  | pop =>
      simp only [operate, stack_recounted]
      cases machine.stack.pop <;> exact ⟨rfl, rfl⟩
  | skip => exact ⟨rfl, rfl⟩
  | perform routine opcode =>
      simp only [operate, Routine.perform_eq]
      exact carried opcode _
  | dispatch table opcode =>
      simp only [operate, RoutineTable.dispatch_eq]
      exact carried opcode _
  | reset => exact ⟨rfl, rfl⟩
  | assign assignment => cases assignment <;> exact ⟨rfl, rfl⟩

private theorem undergo_of_recounted {one other : Machine} (same : one.recounted = other.recounted)
    (operations : List Operation) :
    (one.undergo operations).1.recounted = (other.undergo operations).1.recounted ∧
      (one.undergo operations).2 = (other.undergo operations).2 := by
  induction operations generalizing one other with
  | nil => exact ⟨same, rfl⟩
  | cons operation rest inductionHypothesis =>
      obtain ⟨oneNext, oneAnswer⟩ := one.operate_recounted operation
      obtain ⟨otherNext, otherAnswer⟩ := other.operate_recounted operation
      rw [same] at oneNext oneAnswer
      obtain ⟨reached, answers⟩ := inductionHypothesis (oneNext.symm.trans otherNext)
      refine ⟨reached, ?_⟩
      rw [undergo, undergo, answers, ← oneAnswer, ← otherAnswer]

end Machine

/-! ### Emulators -/

def Emulator.recounted (emulator : Emulator) : Emulator :=
  { emulator with machine := emulator.machine.recounted }

def Response.recounted (response : Response) : Response :=
  { response with emulator := response.emulator.recounted }

theorem Response.eq_of_recounted {one other : Response} (same : one.recounted = other.recounted) :
    one.outputs = other.outputs ∧ one.reply = other.reply ∧
      one.emulator.recounted = other.emulator.recounted := by
  simp only [recounted, Response.mk.injEq] at same
  obtain ⟨emulator, outputs, reply⟩ := same
  exact ⟨outputs, reply, emulator⟩

namespace Emulator

private theorem deliver_recounted (emulator : Emulator) :
    emulator.recounted.deliver? = emulator.deliver? := by
  funext signal
  cases signal <;> rfl

private theorem act_recounted {action : Machine → Step Failure}
    (respects : Respects Machine.recounted action) (emulator : Emulator) :
    (emulator.recounted.act action).recounted = (emulator.act action).recounted := by
  have steps := respects emulator.machine
  have machine := Step.machine_of_through steps
  have signals := Step.signals_of_through steps
  have failure := Step.failure_of_through steps
  have delivery := emulator.deliver_recounted
  simp only [recounted] at delivery
  simp only [Response.recounted, act, recounted, machine, signals, failure, delivery]

/-- No call lets the host or an observer see how many random bytes were used. -/
theorem perform_recounted (emulator : Emulator) (call : Call) :
    (emulator.recounted.perform call).recounted = (emulator.perform call).recounted := by
  have loads (program : List UInt8) : Respects Machine.recounted (Machine.load program) := by
    intro machine
    unfold Machine.load
    split <;> rfl
  cases call with
  | reset =>
      simp only [perform]
      exact emulator.act_recounted fun _ => rfl
  | load program => exact emulator.act_recounted (loads program)
  | loadFrom source =>
      exact emulator.act_recounted (Machine.transparent_recounted.loadFrom loads source)
  | cycle => exact emulator.act_recounted (Machine.transparent_recounted.cycle emulator.table)
  | frame count =>
      exact emulator.act_recounted (Machine.transparent_recounted.frame emulator.table count)
  | _ => rfl

theorem perform_of_recounted {one other : Emulator} (same : one.recounted = other.recounted)
    (call : Call) : (one.perform call).recounted = (other.perform call).recounted := by
  rw [← one.perform_recounted, ← other.perform_recounted, same]

private theorem after_of_recounted {one other : Emulator} (same : one.recounted = other.recounted)
    (calls : List Call) : (one.after calls).recounted = (other.after calls).recounted := by
  induction calls generalizing one other with
  | nil => exact same
  | cons call rest inductionHypothesis =>
      have responses := perform_of_recounted same call
      exact inductionHypothesis (Response.eq_of_recounted responses).2.2

/-- A new emulator with a supply of its own, and with the table, the observers and the verbosity of
another. -/
def renewed (emulator : Emulator) (supply : Entropy) : Emulator :=
  { unobserved emulator.table supply emulator.verbosity with
    screenObserver := emulator.screenObserver
    buzzerObserver := emulator.buzzerObserver }

private theorem recounted_renewed (emulator : Emulator) {one other : Entropy}
    (same : one.ahead = other.ahead) :
    (emulator.renewed one).recounted = (emulator.renewed other).recounted :=
  Emulator.ext (Machine.recounted_initial same) rfl rfl rfl rfl

private theorem emulator_reset (emulator : Emulator) :
    (emulator.perform .reset).emulator = emulator.renewed emulator.machine.entropy := by
  rw [perform]
  change { emulator with machine := emulator.machine.reset } = _
  rw [Machine.reset_eq_initial, renewed, unobserved]

private theorem reply_reset (emulator : Emulator) : (emulator.perform .reset).reply = .done := by
  rw [perform]
  rfl

private theorem mem_outputs_reset {emulator : Emulator} {output : Output}
    (member : output ∈ (emulator.perform .reset).outputs) : output = .line .wasReset := by
  rw [perform] at member
  obtain ⟨signal, sent, delivered⟩ := List.mem_filterMap.mp member
  rw [List.mem_singleton.mp sent, deliver?] at delivered
  split at delivered
  · exact (Option.some.inj delivered).symm
  · cases delivered

/-- Whatever calls came before, a reset makes the emulator equal to a new one with the same table,
observers and verbosity, which takes over the supply of random bytes. The reset tells nobody but
the log. A new emulator with any supply that has the same bytes ahead gives the same outputs and
replies in every history from there on. The same holds of a machine on its own, whatever was done
to it. -/
theorem reset_starts_over (table : RoutineTable) (entropy : Entropy) (verbosity : Verbosity)
    (earlier : List Call) (operations : List Operation) :
    (let reached := (unobserved table entropy verbosity).after earlier
      let response := reached.perform .reset
      response.emulator = reached.renewed reached.machine.entropy ∧ response.reply = .done ∧
        (∀ output ∈ response.outputs, output = .line .wasReset) ∧
        ∀ supply, supply.ahead = reached.machine.entropy.ahead → ∀ later call,
          let here := (response.emulator.after later).perform call
          let there := ((reached.renewed supply).after later).perform call
          here.outputs = there.outputs ∧ here.reply = there.reply ∧
            here.emulator.recounted = there.emulator.recounted) ∧
      let worked := ((Machine.initial entropy).undergo operations).1
      worked.operate .reset = (Machine.initial worked.entropy, .done) ∧
        ∀ supply, supply.ahead = worked.entropy.ahead → ∀ later,
          let here := (worked.operate .reset).1.undergo later
          let there := (Machine.initial supply).undergo later
          here.2 = there.2 ∧ here.1.recounted = there.1.recounted := by
  constructor
  · intro reached response
    have restarted := emulator_reset reached
    refine ⟨restarted, reply_reset reached, fun output => mem_outputs_reset, ?_⟩
    intro supply same later call here there
    have begun : response.emulator.recounted = (reached.renewed supply).recounted := by
      rw [restarted]
      exact reached.recounted_renewed same.symm
    exact Response.eq_of_recounted (perform_of_recounted (after_of_recounted begun later) call)
  · intro worked
    refine ⟨rfl, ?_⟩
    intro supply same later here there
    have machines := Machine.undergo_of_recounted (Machine.recounted_initial same.symm) later
    exact ⟨machines.2, machines.1⟩

end Emulator

end Chip8
