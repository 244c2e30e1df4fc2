import Chip8.Emulator.History
import Chip8.Proofs.Agreement
import Chip8.Proofs.Effect

/-!
Bounds that hold in every machine that host calls reach from power-up, whatever routines the
table assigns. The bounds of the program counter and of the return addresses depend on each
other, so they are preserved together.
-/

namespace Chip8

/-- A return address follows a call that was fetched, so it lies past the first two bytes and at
most one past the end of memory. -/
structure Machine.Bounded (machine : Machine) : Prop where
  counter : machine.counter.toNat ≤ 0x10FE
  depth : machine.stack.depth ≤ 16
  returns : ∀ address ∈ machine.stack.frames, 2 ≤ address.toNat ∧ address.toNat ≤ 0x1000
  pixels : ∀ cell : Screen.Cell,
    machine.panel.screen.pixels[cell] = 0 ∨ machine.panel.screen.pixels[cell] = 1

private theorem Successor.le {before after : UInt16} (successor : Successor before after)
    (low : 2 ≤ before.toNat) (high : before.toNat ≤ 0x1000) : after.toNat ≤ 0x10FE := by
  cases successor with
  | next => omega
  | skipped =>
      rw [UInt16.toNat_add]
      change (before.toNat + 2) % 2 ^ 16 ≤ _
      omega
  | awaited =>
      rw [UInt16.toNat_sub]
      change (2 ^ 16 - 2 + before.toNat) % 2 ^ 16 ≤ _
      omega
  | jumped target near => exact Word.toNat_ofNat_le near (by decide)

namespace Machine.Bounded

variable {machine before after : Machine}

theorem of_stack_eq (bounded : before.Bounded) (stack : after.stack = before.stack)
    (counter : after.counter.toNat ≤ 0x10FE) : after.Bounded := by
  refine ⟨counter, after.stack.depth_le, ?_, after.panel.screen.binary⟩
  rw [stack]
  exact bounded.returns

/-- An opcode keeps the bounds when the counter has just moved past it. -/
theorem effect {reading : Option Instruction} {step : Step Fault} (bounded : before.Bounded)
    (effect : Effect reading before step) (low : 2 ≤ before.counter.toNat)
    (high : before.counter.toNat ≤ 0x1000) : step.machine.Bounded := by
  cases effect with
  | moved counter successor => exact bounded.of_stack_eq rfl (successor.le low high)
  | called target stack calls pushed =>
      have near := target.isLt
      refine ⟨?_, stack.depth_le, ?_, before.panel.screen.binary⟩
      · exact Word.toNat_ofNat_le (Nat.le_trans (Nat.le_of_lt near) (by decide)) (by decide)
      · change ∀ address ∈ stack.frames, _
        rw [CallStack.frames_of_push pushed]
        intro address member
        rcases List.mem_append.mp member with older | newest
        · exact bounded.returns address older
        · rw [List.mem_singleton.mp newest]
          exact ⟨low, high⟩
  | left address stack leaves popped =>
      have split := CallStack.frames_of_pop popped
      refine ⟨?_, stack.depth_le, ?_, before.panel.screen.binary⟩
      · have known : address ∈ before.stack.frames := by
          rw [split]
          exact List.mem_append_right _ List.mem_cons_self
        exact Nat.le_trans (bounded.returns address known).2 (by decide)
      · intro older member
        apply bounded.returns
        rw [split]
        exact List.mem_append_left _ member
  | _ => exact bounded.of_stack_eq rfl bounded.counter

theorem cycle (bounded : machine.Bounded) (table : RoutineTable) :
    (machine.cycle table).machine.Bounded := by
  cases machine.course_cycle table with
  | unfetched fault _ outcome =>
      rw [outcome]
      exact bounded
  | refused opcode fault fetch _ outcome =>
      have inside := counter_le_of_opcode fetch
      have advanced := machine.counter_skip (by omega)
      rw [outcome]
      refine bounded.of_stack_eq rfl ?_
      dsimp only
      omega
  | completed opcode done fetch carried _ outcome =>
      have inside := counter_le_of_opcode fetch
      have advanced := machine.counter_skip (by omega)
      -- A fetched opcode leaves the counter between 2 and 4096 before it is carried out.
      have skipped : machine.skip.Bounded := bounded.of_stack_eq rfl (by omega)
      have effect := machine.skip.effect_obey opcode (table.instruction? opcode)
      rw [carried] at effect
      have arrived := skipped.effect effect (by omega) (by omega)
      rw [outcome]
      exact arrived.of_stack_eq rfl arrived.counter

theorem initial (entropy : Entropy) : (Machine.initial entropy).Bounded := by
  refine ⟨?_, Nat.zero_le _, ?_, (Machine.initial entropy).panel.screen.binary⟩
  · change (UInt16.ofNat programStart).toNat ≤ 0x10FE
    decide
  · intro address member
    cases member

theorem perform {emulator : Emulator} (bounded : emulator.machine.Bounded) (call : Call) :
    (emulator.perform call).emulator.machine.Bounded := by
  by_cases runs : call.runs = true
  · cases call with
    | cycle => exact bounded.cycle emulator.table
    | frame count =>
        exact Machine.frame_preserves Machine.Bounded
          (fun _ holds => holds.cycle emulator.table) count bounded
    | _ => cases runs
  · have idle := Bool.eq_false_of_not_eq_true runs
    by_cases kept : call = .reset
    · rw [kept]
      exact initial emulator.machine.entropy
    · refine bounded.of_stack_eq (Emulator.stack_perform idle kept emulator) ?_
      by_cases restarts : call.restarts = true
      · rw [Emulator.counter_perform_of_restarts restarts]
        decide
      · rw [Emulator.counter_perform idle (Bool.eq_false_of_not_eq_true restarts)]
        exact bounded.counter

end Machine.Bounded

/-! ### The index -/

private theorem Effect.index {reading : Option Instruction} {before : Machine} {step : Step Fault}
    (effect : Effect reading before step) :
    step.machine.index = before.index ∨ step.machine.index.toNat ≤ 0xFFF := by
  cases effect with
  | pointed target near => exact .inr (Word.toNat_ofNat_le near (by decide))
  | _ => exact .inl rfl

namespace Machine

private theorem index_cycle {machine : Machine} (table : RoutineTable)
    (small : machine.index.toNat ≤ 0xFFF) :
    (machine.cycle table).machine.index.toNat ≤ 0xFFF := by
  cases machine.course_cycle table with
  | unfetched fault _ outcome =>
      rw [outcome]
      exact small
  | refused opcode fault _ _ outcome =>
      rw [outcome]
      exact small
  | completed opcode done _ carried _ outcome =>
      have effect := machine.skip.effect_obey opcode (table.instruction? opcode)
      rw [carried] at effect
      rw [outcome]
      rcases effect.index with same | pointed
      · change done.machine.index.toNat ≤ 0xFFF
        rw [same]
        exact small
      · exact pointed

end Machine

/-- Only the host can point the index past the twelve-bit addresses. -/
theorem Emulator.index_perform {emulator : Emulator} {call : Call}
    (modest : ∀ value, call = .setIndex value → value.toNat ≤ 0xFFF)
    (small : emulator.machine.index.toNat ≤ 0xFFF) :
    (emulator.perform call).emulator.machine.index.toNat ≤ 0xFFF := by
  cases call with
  | reset => exact Nat.zero_le 0xFFF
  | load program =>
      have kept := emulator.machine.view_load Machine.index (fun _ _ _ => rfl) program
      exact (congrArg UInt16.toNat kept).trans_le small
  | loadFrom source =>
      have kept := emulator.machine.view_loadFrom Machine.index (fun _ _ _ => rfl) source
      exact (congrArg UInt16.toNat kept).trans_le small
  | cycle => exact Machine.index_cycle emulator.table small
  | frame count =>
      exact Machine.frame_preserves (fun machine => machine.index.toNat ≤ 0xFFF)
        (fun _ holds => Machine.index_cycle emulator.table holds) count small
  | setIndex value => exact modest value rfl
  | _ => exact small

/-! ### What a cycle computes -/

/-- A cycle neither wraps a sum or a difference on the program counter nor leaves a store. -/
structure Machine.CycleFits (machine : Machine) (table : RoutineTable) (opcode : Opcode) :
    Prop where
  advanced : machine.skip.counter.toNat = machine.counter.toNat + 2
  skipped : machine.skip.skip.counter.toNat = machine.counter.toNat + 4
  awaited : 2 ≤ machine.skip.counter.toNat ∧
    (machine.skip.counter - 2).toNat = machine.skip.counter.toNat - 2
  offset : ∀ base : Address,
    (UInt16.ofNat base.val + (machine.register Register.base).toUInt16).toNat =
      base.val + (machine.register Register.base).toNat
  accessed : ∀ routine, table.slots.get opcode.family = some routine →
    routine.KeepsTo (routine.accesses opcode machine.skip) opcode machine.skip

private theorem Machine.cycleFits {machine : Machine} {opcode : Opcode}
    (fetch : machine.opcode = .ok opcode) (table : RoutineTable) :
    machine.CycleFits table opcode := by
  have inside := counter_le_of_opcode fetch
  have advanced := machine.counter_skip (by omega)
  refine
    { advanced := advanced
      skipped := ?_
      awaited := ?_
      offset := ?_
      accessed := ?_ }
  · rw [counter_skip _ (by omega)]
    omega
  · refine ⟨by omega, ?_⟩
    rw [UInt16.toNat_sub]
    change (2 ^ 16 - 2 + machine.skip.counter.toNat) % 2 ^ 16 = _
    omega
  · intro base
    have near := base.isLt
    have small := (machine.register Register.base).toNat_lt
    rw [Word.offset_eq_ofNat, UInt16.toNat_ofNat']
    omega
  · intro routine _
    exact routine.keepsTo_accesses opcode machine.skip

/-! ### Reachable machines -/

/-- Every machine that a history from power-up reaches keeps the bounds, under every table of
routines, and every cycle from there computes inside its words and stores. -/
theorem Emulator.history_bounded (table : RoutineTable) (entropy : Entropy)
    (verbosity : Verbosity) (calls : List Call) :
    let reached := (unobserved table entropy verbosity).after calls
    reached.machine.Bounded ∧
      ((∀ value, Call.setIndex value ∈ calls → value.toNat ≤ 0xFFF) →
        reached.machine.index.toNat ≤ 0xFFF) ∧
      ∀ opcode, reached.machine.opcode = .ok opcode →
        reached.machine.CycleFits reached.table opcode := by
  intro reached
  refine ⟨?_, ?_, ?_⟩
  · apply after_preserves fun emulator => emulator.machine.Bounded
    · intro emulator call _ bounded
      exact bounded.perform call
    · exact Machine.Bounded.initial entropy
  · intro modest
    apply after_preserves fun emulator => emulator.machine.index.toNat ≤ 0xFFF
    · intro emulator call member small
      apply index_perform _ small
      intro value same
      exact modest value (same ▸ member)
    · exact Nat.zero_le 0xFFF
  · intro opcode fetch
    exact Machine.cycleFits fetch reached.table

end Chip8
