import Chip8.Emulator.Moment
import Chip8.Proofs.Effect
import Mathlib.Data.List.DropRight

/-!
What memory holds under the full table. Each address holds the byte that was last put there, by a
program that was loaded, by one of the two instructions that store, or by the host, and otherwise
still the byte of power-up. As long as nothing is stored over the digit sprites, pointing at a digit
finds its sprite.
-/

namespace Chip8

structure Write where
  start : Nat
  bytes : List UInt8
  deriving DecidableEq, Repr

namespace Write

def byteAt? (write : Write) (address : Nat) : Option UInt8 :=
  if write.start ≤ address then write.bytes[address - write.start]? else none

/-- Whether a write stays off the digit sprites. -/
def SparesGlyphs (write : Write) : Prop :=
  write.start + write.bytes.length ≤ 0x50 ∨ 0xA0 ≤ write.start

private theorem byteAt?_of_sparesGlyphs {write : Write} (spares : write.SparesGlyphs)
    {address : Nat}
    (low : 0x50 ≤ address) (high : address < 0xA0) : write.byteAt? address = none := by
  unfold byteAt?
  split
  · apply List.getElem?_eq_none
    rcases spares with before | behind
    · omega
    · omega
  · rfl

end Write

namespace Memory

def accept (memory : Memory) : Option Write → Memory
  | some write => memory.overwrite write.start write.bytes
  | none => memory

def initialByte (address : Nat) : UInt8 :=
  if 0x50 ≤ address ∧ address < 0xA0 then
    (Glyph.rows.get (Fin.ofNat 16 ((address - 0x50) / 5))).get (Fin.ofNat 5 ((address - 0x50) % 5))
  else 0

private theorem getElem?_accept (memory : Memory) (write? : Option Write) {address : Nat}
    (inside : address < memorySize) :
    (memory.accept write?).cells[address]? =
      (write?.bind fun write => write.byteAt? address).or memory.cells[address]? := by
  cases write? with
  | none => rfl
  | some write =>
      rw [accept, getElem?_overwrite, Option.bind_some, Write.byteAt?]
      by_cases low : write.start ≤ address
      · rw [if_pos low]
        by_cases high : address < write.start + write.bytes.length
        · have present : address - write.start < write.bytes.length := by omega
          rw [if_pos ⟨low, high, inside⟩, List.getElem?_eq_getElem present, Option.some_or]
        · have beyond : write.bytes.length ≤ address - write.start := by omega
          rw [if_neg fun covered => high covered.2.1, List.getElem?_eq_none beyond, Option.none_or]
      · rw [if_neg low, if_neg fun covered => low covered.1, Option.none_or]

private theorem getElem?_glyphs (position : Fin 80) :
    Glyph.bytes[position.val]? =
      some ((Glyph.rows.get (Fin.ofNat 16 (position.val / 5))).get
        (Fin.ofNat 5 (position.val % 5))) := by
  revert position
  decide

private theorem getElem?_initial {address : Nat} (inside : address < memorySize) :
    initial.cells[address]? = some (initialByte address) := by
  have count : Glyph.bytes.length = 80 := by decide
  rw [initial, getElem?_overwrite, count, initialByte]
  by_cases glyph : 0x50 ≤ address ∧ address < 0xA0
  · rw [if_pos glyph, if_pos ⟨glyph.1, glyph.2, inside⟩]
    exact getElem?_glyphs ⟨address - 0x50, by omega⟩
  · rw [if_neg glyph, if_neg fun covered => glyph ⟨covered.1, covered.2.1⟩]
    exact Vector.getElem?_replicate_of_lt inside

private theorem slice_glyph {memory : Memory}
    (intact : ∀ address, 0x50 ≤ address → address < 0xA0 →
      memory.cells[address]? = some (initialByte address)) (digit : Nibble) :
    memory.slice (0x50 + 5 * digit.val) 5 = .ok (Glyph.rows.get digit).toList := by
  have bound := digit.isLt
  have within : 0x50 + 5 * digit.val + 5 ≤ memorySize := by
    rw [memorySize]
    omega
  rw [slice_of_le memory within]
  congr 1
  apply List.ext_getElem
  · rw [window_length, Vector.length_toList]
    rfl
  · intro row inside _
    rw [window_length] at inside
    change row < 5 at inside
    have present := intact (0x50 + 5 * digit.val + row) (by omega) (by omega)
    obtain ⟨_, held⟩ := Vector.getElem?_eq_some_iff.mp present
    have sprite : (0x50 + 5 * digit.val + row - 0x50) / 5 = digit.val := by omega
    have line : (0x50 + 5 * digit.val + row - 0x50) % 5 = row := by omega
    rw [initialByte, if_pos (by omega), sprite, line] at held
    simp only [window, List.getElem_ofFn, Vector.getElem_toList]
    refine held.trans ?_
    simp only [Vector.get, Fin.ofNat, Nat.mod_eq_of_lt bound, Nat.mod_eq_of_lt inside]
    rfl

end Memory

/-! ### One cycle -/

/-- What an instruction stores, provided that it fits into memory. -/
def Instruction.store? (machine : Machine) : Instruction → Option Write
  | .auxiliary .storeDecimal x =>
      some
        { start := machine.index.toNat
          bytes := (decimalDigits (machine.number x)).map UInt8.ofNat }
  | .auxiliary .saveRegisters x =>
      some
        { start := machine.index.toNat
          bytes := ((List.finRange 16).take (x.val + 1)).map machine.register }
  | _ => none

def Machine.store? (machine : Machine) : Option Write :=
  match machine.instruction with
  | .ok instruction => instruction.store? machine
  | .error _ => none

private theorem Machine.start_of_spanAtIndex {machine : Machine} {length : Nat} {span : Span}
    (block : machine.spanAtIndex length = .ok span) : span.start = machine.index.toNat :=
  (Span.of_eq_ok block).1

private theorem Auxiliary.memory_execute {operation : Auxiliary} {x : Register} {machine : Machine}
    (success : (operation.execute x machine).failure = none) :
    (operation.execute x machine).machine.memory =
      machine.memory.accept ((Instruction.auxiliary operation x).store? machine) := by
  cases operation with
  | awaitKey =>
      simp only [execute]
      cases machine.keypad.lowest? <;> rfl
  | storeDecimal =>
      simp only [execute] at success ⊢
      cases block : machine.spanAtIndex 3 with
      | error fault =>
          rw [block] at success
          cases success
      | ok span =>
          simp only [Machine.start_of_spanAtIndex block]
          rfl
  | saveRegisters =>
      simp only [execute] at success ⊢
      cases block : machine.spanAtIndex (x.val + 1) with
      | error fault =>
          rw [block] at success
          cases success
      | ok span =>
          simp only [Machine.start_of_spanAtIndex block]
          rfl
  | restoreRegisters =>
      simp only [execute]
      cases machine.spanAtIndex (x.val + 1) <;> rfl
  | _ => rfl

/-- Apart from the two instructions that store, no instruction touches memory. -/
theorem Instruction.memory_execute {instruction : Instruction} {machine : Machine}
    (success : (instruction.execute machine).failure = none) :
    (instruction.execute machine).machine.memory =
      machine.memory.accept (instruction.store? machine) := by
  cases instruction with
  | leave =>
      simp only [execute]
      cases machine.stack.pop <;> rfl
  | call target =>
      simp only [execute]
      cases machine.stack.push machine.counter <;> rfl
  | skipIfEqual x operand =>
      simp only [execute]
      split <;> rfl
  | skipUnlessEqual x operand =>
      simp only [execute]
      split <;> rfl
  | arithmetic operation x y =>
      simp only [execute, Arithmetic.execute]
      cases operation.flag? (machine.number x) (machine.number y) <;> rfl
  | draw x y height =>
      simp only [execute]
      cases machine.spanAtIndex height.val <;> rfl
  | skipOnKey x down =>
      simp only [execute]
      split <;> rfl
  | auxiliary operation x => exact Auxiliary.memory_execute success
  | _ => rfl

/-- A cycle that succeeds stores what its instruction stores, and one that fails stores nothing. -/
theorem Machine.memory_cycle (machine : Machine) :
    (machine.cycle .standard).machine.memory =
      machine.memory.accept
        (if (machine.cycle .standard).failure.isNone then machine.store? else none) := by
  cases machine.course_cycle .standard with
  | unfetched fault _ outcome =>
      rw [outcome]
      rfl
  | refused opcode fault _ _ outcome =>
      rw [outcome]
      rfl
  | completed opcode done fetch carried success outcome =>
      have decoded := instruction_of_opcode fetch
      rw [RoutineTable.instruction?_standard] at carried
      rw [Instruction.decode] at decoded
      have memory : (machine.cycle .standard).machine.memory = done.machine.memory := by
        rw [outcome]
        rfl
      have completes : (machine.cycle .standard).failure.isNone = true := by
        rw [outcome]
        rfl
      rw [memory, if_pos completes, store?, decoded]
      cases reading : Instruction.ofOpcode? opcode with
      | none =>
          rw [reading] at carried
          rw [← carried]
          rfl
      | some instruction =>
          rw [reading] at carried
          rw [← carried] at success ⊢
          exact Instruction.memory_execute success

/-! ### Pointing at a digit -/

namespace Machine

def PointsAt (machine : Machine) (digit : Nibble) : Prop :=
  machine.memory.slice machine.index.toNat 5 = .ok (Glyph.rows.get digit).toList

variable {machine : Machine}
  (intact : ∀ address, 0x50 ≤ address → address < 0xA0 →
    machine.memory.cells[address]? = some (Memory.initialByte address))

include intact

theorem pointsAt_execute (x : Register) :
    ((Instruction.auxiliary .pointGlyph x).execute machine).machine.PointsAt
      (Nibble.ofNat (machine.register x).toNat) := by
  have found := Memory.slice_glyph intact (Nibble.ofNat (machine.register x).toNat)
  have index : (UInt16.ofNat (glyphStart + Glyph.height * (machine.number x % 16))).toNat =
      0x50 + 5 * ((machine.register x).toNat % 16) := by
    rw [UInt16.toNat_ofNat', glyphStart, Glyph.height, number]
    omega
  rw [PointsAt]
  exact (congrArg (machine.memory.slice · 5) index).trans found

private theorem pointsAt_cycle {x : Register}
    (decoded : machine.instruction = .ok (.auxiliary .pointGlyph x)) :
    (machine.cycle .standard).failure = none ∧
      (machine.cycle .standard).machine.PointsAt (Nibble.ofNat (machine.register x).toNat) := by
  cases machine.course_cycle .standard with
  | unfetched fault fetch outcome =>
      rw [instruction, fetch] at decoded
      cases decoded
  | refused opcode fault fetch refusal outcome =>
      rw [instruction_of_opcode fetch, Instruction.decode_eq_ok_iff] at decoded
      rw [RoutineTable.instruction?_standard, decoded] at refusal
      cases congrArg Step.failure refusal
  | completed opcode done fetch carried success outcome =>
      rw [instruction_of_opcode fetch, Instruction.decode_eq_ok_iff] at decoded
      rw [RoutineTable.instruction?_standard, decoded] at carried
      rw [outcome, ← carried]
      have skipped : ∀ address, 0x50 ≤ address → address < 0xA0 →
          machine.skip.memory.cells[address]? = some (Memory.initialByte address) := intact
      exact ⟨rfl, pointsAt_execute skipped x⟩

end Machine

/-! ### One moment -/

def Call.program? : Call → Option (List UInt8)
  | .load program => if program.length ≤ programCapacity then some program else none
  | .loadFrom source =>
      match source.contents with
      | .ok program => if program.length ≤ programCapacity then some program else none
      | .error _ => none
  | _ => none

namespace Machine

private theorem memory_load (machine : Machine) (program : List UInt8) :
    (machine.load program).machine.memory =
      machine.memory.accept ((Call.load program).program?.map (Write.mk programStart)) := by
  simp only [Call.program?]
  by_cases fits : program.length ≤ programCapacity
  · rw [load_of_le fits, if_pos fits]
    rfl
  · rw [machine_load_of_lt (Nat.lt_of_not_le fits), if_neg fits]
    rfl

private theorem memory_loadFrom (machine : Machine) (source : Source) :
    (machine.loadFrom source).machine.memory =
      machine.memory.accept ((Call.loadFrom source).program?.map (Write.mk programStart)) := by
  simp only [loadFrom, Call.program?]
  cases source.contents with
  | ok program => exact machine.memory_load program
  | error failure => rfl

end Machine

namespace Moment

/-- What the moment stores, by an instruction that succeeds or by a call of the host. -/
def store? (moment : Moment) : Option Write :=
  match moment.call with
  | .cycle => if moment.completes then moment.before.machine.store? else none
  | .overwrite start bytes =>
      some
        { start := start
          bytes := bytes }
  | _ => none

/-- All that the moment writes to memory, a program included. -/
def write? (moment : Moment) : Option Write :=
  (moment.call.program?.map (Write.mk programStart)).or moment.store?

def put? (address : Nat) (moment : Moment) : Option UInt8 :=
  moment.write?.bind fun write => write.byteAt? address

def resets (moment : Moment) : Bool :=
  match moment.call with
  | .reset => true
  | _ => false

def sinceReset (moments : List Moment) : List Moment :=
  moments.rtakeWhile fun moment => !moment.resets

private theorem resets_of_mem_since {moments : List Moment} {moment : Moment}
    (member : moment ∈ sinceReset moments) : moment.resets = false := by
  have kept := List.mem_rtakeWhile_imp member
  rwa [Bool.not_eq_true'] at kept

private theorem put?_of_sparesGlyphs {moment : Moment}
    (spares : ∀ write, moment.store? = some write → write.SparesGlyphs) {address : Nat}
    (low : 0x50 ≤ address) (high : address < 0xA0) : moment.put? address = none := by
  rw [put?, write?]
  cases moment.call.program? with
  | some program =>
      exact Write.byteAt?_of_sparesGlyphs (.inr (show 0xA0 ≤ programStart by decide)) low high
  | none =>
      cases stored : moment.store? with
      | none => rfl
      | some write => exact Write.byteAt?_of_sparesGlyphs (spares write stored) low high

private theorem memory_of_resets {moment : Moment} (resets : moment.resets = true) :
    moment.after.machine.memory = Memory.initial := by
  obtain ⟨before, call⟩ := moment
  cases call with
  | reset => rfl
  | _ => cases resets

/-- Short of a reset, a moment changes memory by its write alone. -/
theorem memory_after {moment : Moment} (full : moment.before.table = .standard)
    (single : moment.call.Single) (unreset : moment.resets = false) :
    moment.after.machine.memory = moment.before.machine.memory.accept moment.write? := by
  rcases single.cycle_or_idle with cycles | idle
  · rw [machine_after_of_cycle cycles, write?, store?, cycles, completes_of_cycle cycles, full]
    exact moment.before.machine.memory_cycle
  · obtain ⟨before, call⟩ := moment
    cases call with
    | reset => cases unreset
    | load program =>
        rw [write?, store?, Option.or_none]
        exact before.machine.memory_load program
    | loadFrom source =>
        rw [write?, store?, Option.or_none]
        exact before.machine.memory_loadFrom source
    | cycle => cases idle
    | frame count => cases idle
    | _ => rfl

end Moment

/-! ### Runs -/

namespace Emulator

variable {start final : Emulator} {moments : List Moment}

/-- Without a reset, an address holds the byte that was put there last. -/
theorem Run.cells (run : Run start moments final) (full : start.table = .standard)
    (unreset : ∀ moment ∈ moments, moment.resets = false) {address : Nat}
    (inside : address < memorySize) :
    final.machine.memory.cells[address]? =
      (moments.filterMap (Moment.put? address)).getLast?.or
        start.machine.memory.cells[address]? := by
  induction run with
  | nil emulator => rfl
  | cons moment single later inductionHypothesis =>
      obtain ⟨here, onward⟩ := List.forall_mem_cons.mp unreset
      have written : moment.after.machine.memory.cells[address]? =
          (moment.put? address).or moment.before.machine.memory.cells[address]? := by
        rw [moment.memory_after full single here]
        exact Memory.getElem?_accept _ _ inside
      rw [inductionHypothesis (moment.table_after.trans full) onward, written,
        List.filterMap_cons]
      cases moment.put? address with
      | none => rfl
      | some byte =>
          rw [List.getLast?_cons]
          cases (List.filterMap (Moment.put? address) _).getLast? <;> rfl

/-- From power-up on, every address holds the byte that was last put there since the last reset,
by a program that was loaded, by an instruction that stored or by the host, and otherwise the byte
of power-up. As long as all that was stored spares the digit sprites, pointing at a digit succeeds
and finds its sprite. -/
theorem memory_holds_last_write (entropy : Entropy) (verbosity : Verbosity) (calls : List Call) :
    let start := unobserved .standard entropy verbosity
    let since := Moment.sinceReset (start.history calls)
    let reached := start.after calls
    (∀ address < memorySize, reached.machine.memory.cells[address]? =
        some ((since.filterMap (Moment.put? address)).getLast?.getD
          (Memory.initialByte address))) ∧
      ((∀ moment ∈ since, ∀ write, moment.store? = some write → write.SparesGlyphs) →
        ∀ opcode x, Instruction.ofOpcode? opcode = some (.auxiliary .pointGlyph x) →
          let digit := Nibble.ofNat (reached.machine.register x).toNat
          let step := RoutineTable.standard.dispatch opcode reached.machine
          (step.failure = none ∧ step.machine.PointsAt digit) ∧
            (reached.machine.opcode = .ok opcode →
              reached.cycle.reply = .done ∧ reached.cycle.emulator.machine.PointsAt digit)) := by
  intro start since reached
  have run : Run start (start.history calls) reached := start.run_history calls
  have full : reached.table = .standard := run.table.2
  have cells : ∀ address < memorySize, reached.machine.memory.cells[address]? =
      some ((since.filterMap (Moment.put? address)).getLast?.getD
        (Memory.initialByte address)) := by
    intro address inside
    have fresh : (start.lastMarked Moment.resets (start.history calls)).machine.memory =
          Memory.initial ∧
        (start.lastMarked Moment.resets (start.history calls)).table = .standard := by
      rcases start.lastMarked_eq Moment.resets (start.history calls) with
        began | ⟨moment, member, resets, ended⟩
      · rw [began]
        exact ⟨rfl, rfl⟩
      · rw [ended]
        exact ⟨moment.memory_of_resets resets, moment.table_after.trans (run.table.1 moment member)⟩
    rw [(run.sinceMarked Moment.resets).cells fresh.2
      (fun moment => Moment.resets_of_mem_since) inside, fresh.1, Memory.getElem?_initial inside,
      Option.or_some]
    rfl
  refine ⟨cells, ?_⟩
  intro spared opcode x reading digit step
  have intact (address : Nat) (low : 0x50 ≤ address) (high : address < 0xA0) :
      reached.machine.memory.cells[address]? = some (Memory.initialByte address) := by
    have unwritten : since.filterMap (Moment.put? address) = [] :=
      List.filterMap_eq_nil_iff.mpr fun moment member =>
        Moment.put?_of_sparesGlyphs (spared moment member) low high
    rw [cells address (by rw [memorySize]; omega), unwritten]
    rfl
  refine ⟨?_, ?_⟩
  · have carried : step = (Instruction.auxiliary .pointGlyph x).execute reached.machine := by
      unfold step
      rw [RoutineTable.dispatch_eq, RoutineTable.instruction?_standard, reading]
      rfl
    rw [carried]
    exact ⟨rfl, Machine.pointsAt_execute intact x⟩
  · intro fetch
    have decoded : reached.machine.instruction = .ok (.auxiliary .pointGlyph x) := by
      rw [Machine.instruction_of_opcode fetch]
      exact Instruction.decode_eq_ok_iff.mpr reading
    obtain ⟨success, points⟩ := Machine.pointsAt_cycle intact decoded
    rw [cycle, reply_act_done_iff, full]
    exact ⟨success, points⟩

end Emulator

end Chip8
