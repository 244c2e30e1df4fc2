import Chip8.Proofs.Lockstep
import Chip8.Proofs.Painting
import Chip8.Proofs.Timers

/-!
What routines write, in whatever slot they sit. Each routine has a set of places, given by the
opcode and the machine that it finds, and changes nothing outside of it. Unlike accesses, which are
single positions of four stores and may be reads, the places make up the whole machine and are all
written. A cycle therefore writes what its routine writes, moves the counter and lets the timers
tick. The keypad, the observers and the table are out of reach of all that runs, so they are as the
host left them.
-/

namespace Chip8

/-- A place of a machine that is written on its own. The keypad is none, for nothing that runs
writes it. -/
inductive Place
  | byte (address : Nat)
  | register (register : Register)
  | index
  | counter
  | screen
  | mark
  | clock (clock : Clock)
  | slot (position : Nat)
  | depth
  | supply
  deriving DecidableEq, Repr

structure Machine.KeptBeyond (written : List Place) (before after : Machine) : Prop where
  byte : ∀ address, .byte address ∉ written →
    after.memory.cells[address]? = before.memory.cells[address]?
  register : ∀ register, .register register ∉ written →
    after.register register = before.register register
  index : .index ∉ written → after.index = before.index
  counter : .counter ∉ written → after.counter = before.counter
  screen : .screen ∉ written → after.panel.screen = before.panel.screen
  mark : .mark ∉ written → after.panel.changed = before.panel.changed
  clock : ∀ clock, .clock clock ∉ written → after.clock clock = before.clock clock
  slot : ∀ position, .slot position ∉ written →
    after.stack.slots[position]? = before.stack.slots[position]?
  depth : .depth ∉ written → after.stack.depth = before.stack.depth
  supply : .supply ∉ written → after.entropy = before.entropy
  keypad : after.keypad = before.keypad

def Machine.bytesFromIndex (machine : Machine) (count : Nat) : List Place :=
  (List.range count).map fun offset => .byte (machine.index.toNat + offset)

def Register.placesUpTo (last : Register) : List Place :=
  ((List.finRange 16).take (last.val + 1)).map .register

def Auxiliary.writes (machine : Machine) (x : Register) : Auxiliary → List Place
  | .readDelay => [.register x]
  | .awaitKey =>
      match machine.keypad.lowest? with
      | some _ => [.register x]
      | none => [.counter]
  | .setDelay => [.clock .delay]
  | .setSound => [.clock .sound]
  | .addIndex => [.index]
  | .pointGlyph => [.index]
  | .storeDecimal => machine.bytesFromIndex 3
  | .saveRegisters => machine.bytesFromIndex (x.val + 1)
  | .restoreRegisters => x.placesUpTo

/-- The places that a routine can change when it carries out an opcode of any family. -/
def Routine.writes (opcode : Opcode) (machine : Machine) : Routine → List Place
  | .control =>
      if opcode.word = 0x00E0 then [.screen, .mark]
      else if opcode.word = 0x00EE then [.counter, .depth]
      else []
  | .jump => [.counter]
  | .call => [.counter, .depth, .slot machine.stack.depth]
  | .skipEqualByte => [.counter]
  | .skipUnequalByte => [.counter]
  | .skipEqualRegister => [.counter]
  | .loadByte => [.register opcode.x]
  | .addByte => [.register opcode.x]
  | .arithmetic => [.register opcode.x, .register Register.flag]
  | .skipUnequalRegister => [.counter]
  | .loadIndex => [.index]
  | .jumpOffset => [.counter]
  | .random => [.register opcode.x, .supply]
  | .draw => [.screen, .mark, .register Register.flag]
  | .skipKey => [.counter]
  | .auxiliary =>
      match Auxiliary.ofCode? opcode.byte.toNat with
      | none => []
      | some operation => operation.writes machine opcode.x

namespace Machine.KeptBeyond

variable {written other : List Place} {before between after : Machine}

theorem refl (written : List Place) (machine : Machine) : machine.KeptBeyond written machine :=
  ⟨fun _ _ => rfl, fun _ _ => rfl, fun _ => rfl, fun _ => rfl, fun _ => rfl, fun _ => rfl,
    fun _ _ => rfl, fun _ _ => rfl, fun _ => rfl, fun _ => rfl, rfl⟩

theorem mono (kept : before.KeptBeyond written after) (covers : ∀ place ∈ written, place ∈ other) :
    before.KeptBeyond other after :=
  { byte := fun address outside => kept.byte address (mt (covers _) outside)
    register := fun register outside => kept.register register (mt (covers _) outside)
    index := fun outside => kept.index (mt (covers _) outside)
    counter := fun outside => kept.counter (mt (covers _) outside)
    screen := fun outside => kept.screen (mt (covers _) outside)
    mark := fun outside => kept.mark (mt (covers _) outside)
    clock := fun clock outside => kept.clock clock (mt (covers _) outside)
    slot := fun position outside => kept.slot position (mt (covers _) outside)
    depth := fun outside => kept.depth (mt (covers _) outside)
    supply := fun outside => kept.supply (mt (covers _) outside)
    keypad := kept.keypad }

theorem trans (first : before.KeptBeyond written between)
    (second : between.KeptBeyond written after) : before.KeptBeyond written after :=
  { byte := fun address outside =>
      (second.byte address outside).trans (first.byte address outside)
    register := fun register outside =>
      (second.register register outside).trans (first.register register outside)
    index := fun outside => (second.index outside).trans (first.index outside)
    counter := fun outside => (second.counter outside).trans (first.counter outside)
    screen := fun outside => (second.screen outside).trans (first.screen outside)
    mark := fun outside => (second.mark outside).trans (first.mark outside)
    clock := fun clock outside =>
      (second.clock clock outside).trans (first.clock clock outside)
    slot := fun position outside =>
      (second.slot position outside).trans (first.slot position outside)
    depth := fun outside => (second.depth outside).trans (first.depth outside)
    supply := fun outside => (second.supply outside).trans (first.supply outside)
    keypad := second.keypad.trans first.keypad }

theorem append (first : before.KeptBeyond written between)
    (second : between.KeptBeyond other after) : before.KeptBeyond (written ++ other) after :=
  (first.mono fun _ => List.mem_append_left other).trans
    (second.mono fun _ => List.mem_append_right written)

theorem memory_eq (kept : before.KeptBeyond written after)
    (untouched : ∀ address, .byte address ∉ written) : after.memory = before.memory :=
  Memory.ext (vector_ext_getElem? fun address => kept.byte address (untouched address))

theorem slots_eq (kept : before.KeptBeyond written after)
    (untouched : ∀ position, .slot position ∉ written) :
    after.stack.slots = before.stack.slots :=
  vector_ext_getElem? fun position => kept.slot position (untouched position)

/-- The places make up the whole machine. -/
theorem eq_of_nil (kept : before.KeptBeyond [] after) : after = before := by
  have panel : after.panel = before.panel :=
    Panel.ext (kept.screen List.not_mem_nil) (kept.mark List.not_mem_nil)
  have stack : after.stack = before.stack :=
    CallStack.ext (kept.slots_eq fun _ => List.not_mem_nil) (kept.depth List.not_mem_nil)
  have registers : after.registers = before.registers :=
    Vector.ext fun register within => kept.register ⟨register, within⟩ List.not_mem_nil
  exact Machine.ext (kept.memory_eq fun _ => List.not_mem_nil) registers
    (kept.index List.not_mem_nil) (kept.counter List.not_mem_nil) panel
    (kept.clock .delay List.not_mem_nil) (kept.clock .sound List.not_mem_nil) stack kept.keypad
    (kept.supply List.not_mem_nil)

/-! ### Single writes -/

variable (machine : Machine)

theorem setRegister {register : Register} (value : UInt8)
    (listed : .register register ∈ written) :
    machine.KeptBeyond written (machine.setRegister register value) := by
  refine { refl written machine with register := ?_ }
  intro other outside
  have different : register.val ≠ other.val := by
    intro same
    exact outside (Fin.ext same ▸ listed)
  exact Vector.getElem_set_ne register.isLt other.isLt different

theorem move (counter : UInt16) (listed : .counter ∈ written) :
    machine.KeptBeyond written { machine with counter := counter } :=
  { refl written machine with counter := fun outside => absurd listed outside }

theorem point (index : UInt16) (listed : .index ∈ written) :
    machine.KeptBeyond written { machine with index := index } :=
  { refl written machine with index := fun outside => absurd listed outside }

theorem overwrite {start : Nat} {bytes : List UInt8}
    (listed : ∀ offset < bytes.length, .byte (start + offset) ∈ written) :
    machine.KeptBeyond written
      { machine with memory := machine.memory.overwrite start bytes } := by
  refine { refl written machine with byte := ?_ }
  intro address outside
  rw [Memory.getElem?_overwrite, if_neg]
  rintro ⟨low, high, _⟩
  have covered := listed (address - start) (by omega)
  rw [Nat.add_sub_cancel' low] at covered
  exact outside covered

theorem fill {values : List UInt8}
    (listed : ∀ register : Register, register.val < values.length → .register register ∈ written) :
    machine.KeptBeyond written
      { machine with registers := Routine.fillRegisters machine.registers values } := by
  refine { refl written machine with register := ?_ }
  intro register outside
  have beyond : values.length ≤ register.val :=
    Nat.le_of_not_lt fun inside => outside (listed register inside)
  simp only [Machine.register, Routine.fillRegisters, Fin.getElem_fin, Vector.getElem_ofFn,
    List.getD_eq_getElem?_getD]
  rw [List.getElem?_eq_none beyond]
  rfl

theorem paint (panel : Panel) (screen : .screen ∈ written) (mark : .mark ∈ written) :
    machine.KeptBeyond written { machine with panel := panel } :=
  { refl written machine with
    screen := fun outside => absurd screen outside
    mark := fun outside => absurd mark outside }

theorem supplied (entropy : Entropy) (listed : .supply ∈ written) :
    machine.KeptBeyond written { machine with entropy := entropy } :=
  { refl written machine with supply := fun outside => absurd listed outside }

theorem windDelay (delay : Countdown) (listed : .clock .delay ∈ written) :
    machine.KeptBeyond written { machine with delay := delay } := by
  refine { refl written machine with clock := ?_ }
  intro clock outside
  cases clock with
  | delay => exact absurd listed outside
  | sound => rfl

theorem windSound (sound : Countdown) (listed : .clock .sound ∈ written) :
    machine.KeptBeyond written { machine with sound := sound } := by
  refine { refl written machine with clock := ?_ }
  intro clock outside
  cases clock with
  | delay => rfl
  | sound => exact absurd listed outside

theorem push {address : UInt16} {stack : CallStack}
    (pushed : machine.stack.push address = .ok stack) (depth : .depth ∈ written)
    (slot : .slot machine.stack.depth ∈ written) :
    machine.KeptBeyond written { machine with stack := stack } := by
  unfold CallStack.push at pushed
  split at pushed
  · next room =>
      cases pushed
      refine { refl written machine with slot := ?_, depth := fun outside => absurd depth outside }
      intro position outside
      have different : machine.stack.depth ≠ position := by
        intro same
        exact outside (same ▸ slot)
      exact Vector.getElem?_set_ne room different
  · cases pushed

theorem pop {address : UInt16} {stack : CallStack}
    (popped : machine.stack.pop = .ok (address, stack)) (depth : .depth ∈ written) :
    machine.KeptBeyond written { machine with stack := stack } := by
  unfold CallStack.pop at popped
  split at popped
  · cases popped
    exact { refl written machine with depth := fun outside => absurd depth outside }
  · cases popped

end Machine.KeptBeyond

/-! ### Routines -/

namespace Routine

open Machine (KeptBeyond)

variable (opcode : Opcode) (machine : Machine)

private theorem keptBeyond_skipWhen (condition : Bool) :
    machine.KeptBeyond [.counter] (skipWhen condition machine).machine := by
  cases condition with
  | false => exact .refl _ machine
  | true => exact .move machine _ (List.mem_singleton_self _)

private theorem keptBeyond_runControl :
    machine.KeptBeyond (control.writes opcode machine) (runControl opcode machine).machine := by
  unfold runControl writes
  by_cases clears : opcode.word = 0x00E0
  · rw [if_pos clears, if_pos clears]
    exact .paint machine _ (by simp) (by simp)
  · rw [if_neg clears, if_neg clears]
    by_cases leaves : opcode.word = 0x00EE
    · rw [if_pos leaves, if_pos leaves]
      cases popped : machine.stack.pop with
      | error fault => exact .refl _ machine
      | ok result =>
          have shrunk : machine.KeptBeyond [.counter, .depth]
              { machine with stack := result.2 } :=
            .pop machine popped (by simp)
          exact shrunk.trans (.move _ _ (by simp))
    · rw [if_neg leaves, if_neg leaves]
      exact .refl _ machine

private theorem keptBeyond_runCall :
    machine.KeptBeyond (call.writes opcode machine) (runCall opcode machine).machine := by
  unfold runCall writes
  cases pushed : machine.stack.push machine.counter with
  | error fault => exact .refl _ machine
  | ok stack =>
      have grown : machine.KeptBeyond [.counter, .depth, .slot machine.stack.depth]
          { machine with stack := stack } :=
        .push machine pushed (by simp) (by simp)
      exact grown.trans (.move _ _ (by simp))

private theorem keptBeyond_runSkipEqualRegister :
    machine.KeptBeyond [.counter] (runSkipEqualRegister opcode machine).machine := by
  unfold runSkipEqualRegister
  split
  · exact .refl _ machine
  · exact keptBeyond_skipWhen machine _

private theorem keptBeyond_runSkipUnequalRegister :
    machine.KeptBeyond [.counter] (runSkipUnequalRegister opcode machine).machine := by
  unfold runSkipUnequalRegister
  split
  · exact .refl _ machine
  · exact keptBeyond_skipWhen machine _

private theorem keptBeyond_runSkipKey :
    machine.KeptBeyond [.counter] (runSkipKey opcode machine).machine := by
  unfold runSkipKey
  split
  · exact keptBeyond_skipWhen machine _
  · split
    · exact keptBeyond_skipWhen machine _
    · exact .refl _ machine

private theorem keptBeyond_runArithmetic :
    machine.KeptBeyond (arithmetic.writes opcode machine)
      (runArithmetic opcode machine).machine := by
  simp only [runArithmetic, writes]
  cases Arithmetic.ofCode? opcode.nibble.val with
  | none => exact .refl _ machine
  | some operation =>
      dsimp only
      cases combine operation (machine.register opcode.x) (machine.register opcode.y) with
      | mk result flag? =>
          cases flag? with
          | none => exact .setRegister machine result List.mem_cons_self
          | some flag =>
              have flagged : machine.KeptBeyond [.register opcode.x, .register Register.flag]
                  (machine.setRegister Register.flag flag) :=
                .setRegister machine flag (by simp)
              exact flagged.trans (.setRegister _ result List.mem_cons_self)

private theorem keptBeyond_runDraw :
    machine.KeptBeyond (draw.writes opcode machine) (runDraw opcode machine).machine := by
  unfold runDraw writes
  cases machine.memory.slice machine.index.toNat opcode.nibble.val with
  | error fault => exact .refl _ machine
  | ok sprite =>
      have flagged (value : UInt8) :
          machine.KeptBeyond [.screen, .mark, .register Register.flag]
            (machine.setRegister Register.flag value) :=
        .setRegister machine value (by simp)
      exact (flagged _).trans (.paint _ _ (by simp) (by simp))

private theorem keptBeyond_storeAtIndex (bytes : List UInt8) :
    machine.KeptBeyond (machine.bytesFromIndex bytes.length)
      (storeAtIndex bytes machine).machine := by
  unfold storeAtIndex Memory.write
  cases formed : Span.of machine.index.toNat bytes.length with
  | error fault => exact .refl _ machine
  | ok span =>
      have start := (Span.of_eq_ok formed).1
      refine .overwrite machine ?_
      intro offset inside
      rw [start]
      exact List.mem_map_of_mem (List.mem_range.mpr inside)

private theorem keptBeyond_runRestore (x : Register) :
    machine.KeptBeyond x.placesUpTo (runRestore x machine).machine := by
  unfold runRestore Memory.slice
  cases formed : Span.of machine.index.toNat (x.val + 1) with
  | error fault => exact .refl _ machine
  | ok span =>
      have length := (machine.memory.window_length span).trans (Span.of_eq_ok formed).2
      refine .fill machine ?_
      intro register inside
      rw [length] at inside
      refine List.mem_map_of_mem (List.mem_take_iff_getElem.mpr ⟨register.val, ?_, ?_⟩)
      · rw [List.length_finRange]
        omega
      · rw [List.getElem_finRange]
        rfl

private theorem keptBeyond_runAwaitKey (x : Register) :
    machine.KeptBeyond (Auxiliary.awaitKey.writes machine x) (runAwaitKey x machine).machine := by
  unfold runAwaitKey Auxiliary.writes
  cases machine.keypad.lowest? with
  | none => exact .move machine _ (List.mem_singleton_self _)
  | some key => exact .setRegister machine _ (List.mem_singleton_self _)

private theorem keptBeyond_runAuxiliary :
    machine.KeptBeyond (auxiliary.writes opcode machine)
      (runAuxiliary opcode machine).machine := by
  simp only [runAuxiliary, writes]
  cases Auxiliary.ofCode? opcode.byte.toNat with
  | none => exact .refl _ machine
  | some operation =>
      cases operation with
      | readDelay => exact .setRegister machine _ (List.mem_singleton_self _)
      | awaitKey => exact keptBeyond_runAwaitKey machine opcode.x
      | setDelay => exact .windDelay machine _ (List.mem_singleton_self _)
      | setSound => exact .windSound machine _ (List.mem_singleton_self _)
      | addIndex => exact .point machine _ (List.mem_singleton_self _)
      | pointGlyph => exact .point machine _ (List.mem_singleton_self _)
      | storeDecimal => exact keptBeyond_storeAtIndex machine [_, _, _]
      | saveRegisters =>
          have stored := keptBeyond_storeAtIndex machine
            (machine.registers.toList.take (opcode.x.val + 1))
          rw [length_take_registers] at stored
          exact stored
      | restoreRegisters => exact keptBeyond_runRestore machine opcode.x

/-- A routine writes nothing but its places, whether it succeeds or fails and whatever family the
opcode is of. -/
theorem keptBeyond_perform (routine : Routine) :
    machine.KeptBeyond (routine.writes opcode machine)
      (routine.perform opcode machine).machine := by
  cases routine with
  | control => exact keptBeyond_runControl opcode machine
  | jump => exact .move machine _ (List.mem_singleton_self _)
  | call => exact keptBeyond_runCall opcode machine
  | skipEqualByte => exact keptBeyond_skipWhen machine _
  | skipUnequalByte => exact keptBeyond_skipWhen machine _
  | skipEqualRegister => exact keptBeyond_runSkipEqualRegister opcode machine
  | loadByte => exact .setRegister machine _ (List.mem_singleton_self _)
  | addByte => exact .setRegister machine _ (List.mem_singleton_self _)
  | arithmetic => exact keptBeyond_runArithmetic opcode machine
  | skipUnequalRegister => exact keptBeyond_runSkipUnequalRegister opcode machine
  | loadIndex => exact .point machine _ (List.mem_singleton_self _)
  | jumpOffset => exact .move machine _ (List.mem_singleton_self _)
  | random =>
      have drawn : machine.KeptBeyond [.register opcode.x, .supply]
          { machine with entropy := machine.entropy.advance } :=
        .supplied machine _ (by simp)
      exact drawn.trans (.setRegister _ _ (by simp))
  | draw => exact keptBeyond_runDraw opcode machine
  | skipKey => exact keptBeyond_runSkipKey opcode machine
  | auxiliary => exact keptBeyond_runAuxiliary opcode machine

end Routine

private def Place.writers : Place → List Routine
  | .byte _ => [.auxiliary]
  | .register _ => [.loadByte, .addByte, .arithmetic, .random, .draw, .auxiliary]
  | .index => [.loadIndex, .auxiliary]
  | .counter =>
      [.control, .jump, .call, .skipEqualByte, .skipUnequalByte, .skipEqualRegister,
        .skipUnequalRegister, .jumpOffset, .skipKey, .auxiliary]
  | .screen => [.control, .draw]
  | .mark => [.control, .draw]
  | .clock _ => [.auxiliary]
  | .slot _ => [.call]
  | .depth => [.control, .call]
  | .supply => [.random]

private theorem Auxiliary.mem_writers {operation : Auxiliary} {machine : Machine} {x : Register}
    {place : Place} (member : place ∈ operation.writes machine x) :
    Routine.auxiliary ∈ place.writers := by
  have bytes {count : Nat} (among : place ∈ machine.bytesFromIndex count) :
      Routine.auxiliary ∈ place.writers := by
    obtain ⟨offset, _, same⟩ := List.mem_map.mp among
    rw [← same]
    exact List.mem_singleton_self _
  cases operation with
  | awaitKey =>
      simp only [writes] at member
      split at member <;> rw [List.mem_singleton.mp member] <;> simp [Place.writers]
  | storeDecimal => exact bytes member
  | saveRegisters => exact bytes member
  | restoreRegisters =>
      obtain ⟨register, _, same⟩ := List.mem_map.mp member
      rw [← same]
      simp [Place.writers]
  | _ =>
      rw [List.mem_singleton.mp member]
      simp [Place.writers]

private theorem Routine.mem_writers {routine : Routine} {opcode : Opcode} {machine : Machine}
    {place : Place} (member : place ∈ routine.writes opcode machine) :
    routine ∈ place.writers := by
  revert place
  cases routine with
  | control =>
      simp only [writes]
      split
      · simp [Place.writers]
      · split <;> simp [Place.writers]
  | auxiliary =>
      simp only [writes]
      split
      · simp
      · exact Auxiliary.mem_writers
  | _ => simp [writes, Place.writers]

/-! ### Cycles under any table -/

namespace Machine

variable {table : RoutineTable} {machine : Machine}

def routine? (table : RoutineTable) (machine : Machine) : Option Routine :=
  match machine.opcode with
  | .error _ => none
  | .ok opcode => table.slots.get opcode.family

def untickedWrites (table : RoutineTable) (machine : Machine) : List Place :=
  match machine.opcode with
  | .error _ => []
  | .ok opcode =>
      .counter ::
        match table.slots.get opcode.family with
        | none => []
        | some routine => routine.writes opcode machine.skip

def writes (table : RoutineTable) (machine : Machine) : List Place :=
  machine.untickedWrites table ++
    if (machine.cycle table).failure.isNone then [.clock .delay, .clock .sound] else []

private theorem keptBeyond_skip {written : List Place} (listed : .counter ∈ written) :
    machine.KeptBeyond written machine.skip :=
  .move machine _ listed

private theorem keptBeyond_tick :
    machine.KeptBeyond [.clock .delay, .clock .sound] machine.tick.machine :=
  (KeptBeyond.windDelay machine machine.delay.tick.1 (by simp)).trans
    (.windSound _ machine.sound.tick.1 (by simp))

private theorem keptBeyond_dispatch (table : RoutineTable) (opcode : Opcode)
    (fetch : machine.opcode = .ok opcode) :
    machine.KeptBeyond (machine.untickedWrites table)
      (table.dispatch opcode machine.skip).machine := by
  simp only [untickedWrites, fetch, RoutineTable.dispatch, Table.dispatchBy]
  have skipped {written : List Place} : machine.KeptBeyond (.counter :: written) machine.skip :=
    keptBeyond_skip List.mem_cons_self
  cases table.slots.get opcode.family with
  | none => exact skipped
  | some routine =>
      have performed := routine.keptBeyond_perform opcode machine.skip
      exact skipped.trans (performed.mono fun _ => List.mem_cons_of_mem _)

/-- The timers tick at the end of a cycle that succeeds. All else is the doing of the routine. -/
theorem exists_keptBeyond_cycle (table : RoutineTable) (machine : Machine) :
    ∃ ready, machine.KeptBeyond (machine.untickedWrites table) ready ∧
      (machine.cycle table).machine =
        if (machine.cycle table).failure.isNone then ready.tick.machine else ready := by
  cases machine.course_cycle table with
  | unfetched fault fetch outcome =>
      rw [outcome]
      exact ⟨machine, .refl _ machine, rfl⟩
  | refused opcode fault fetch refusal outcome =>
      have performed := keptBeyond_dispatch table opcode fetch
      rw [RoutineTable.dispatch_eq, refusal] at performed
      rw [outcome]
      exact ⟨machine.skip, performed, rfl⟩
  | completed opcode done fetch carried success outcome =>
      have performed := keptBeyond_dispatch table opcode fetch
      rw [RoutineTable.dispatch_eq, carried] at performed
      rw [outcome]
      exact ⟨done.machine, performed, rfl⟩

private theorem keptBeyond_cycle (table : RoutineTable) (machine : Machine) :
    machine.KeptBeyond (machine.writes table) (machine.cycle table).machine := by
  obtain ⟨ready, performed, outcome⟩ := machine.exists_keptBeyond_cycle table
  rw [outcome, writes]
  split
  · exact performed.append ready.keptBeyond_tick
  · exact performed.append (.refl _ ready)

private theorem exists_writer_of_mem {place : Place} (member : place ∈ machine.untickedWrites table)
    (further : place ≠ .counter) :
    ∃ routine ∈ place.writers, machine.routine? table = some routine := by
  unfold untickedWrites at member
  cases fetch : machine.opcode with
  | error fault => simp [fetch] at member
  | ok opcode =>
      simp only [fetch] at member
      have among := (List.mem_cons.mp member).resolve_left further
      rw [routine?, fetch]
      cases found : table.slots.get opcode.family with
      | none => simp [found] at among
      | some routine =>
          rw [found] at among
          exact ⟨routine, Routine.mem_writers among, found⟩

private theorem not_mem_untickedWrites {place : Place} (further : place ≠ .counter)
    (idle : ∀ routine ∈ place.writers, machine.routine? table ≠ some routine) :
    place ∉ machine.untickedWrites table := by
  intro member
  obtain ⟨routine, writer, found⟩ := exists_writer_of_mem member further
  exact idle routine writer found

end Machine

/-! ### Moments -/

namespace Moment

def routine? (moment : Moment) : Option Routine :=
  moment.before.machine.routine? moment.before.table

/-- Memory, the timers, the screen and the slots of the stack change only by the routines that write
there, apart from the ticks of the timers. What the host alone sets does not change at all. -/
structure KeepsToRoutine (moment : Moment) : Prop where
  memory : moment.routine? ≠ some .auxiliary →
    moment.after.machine.memory = moment.before.machine.memory
  clock : moment.routine? ≠ some .auxiliary → ∀ clock,
    moment.after.machine.clock clock =
      if moment.completes then (moment.before.machine.clock clock).tick.1
      else moment.before.machine.clock clock
  screen : moment.routine? ≠ some .control → moment.routine? ≠ some .draw →
    moment.after.machine.panel.screen = moment.before.machine.panel.screen
  slots : moment.routine? ≠ some .call →
    moment.after.machine.stack.slots = moment.before.machine.stack.slots
  keypad : moment.after.machine.keypad = moment.before.machine.keypad
  table : moment.after.table = moment.before.table
  screenObserver : moment.after.screenObserver = moment.before.screenObserver
  buzzerObserver : moment.after.buzzerObserver = moment.before.buzzerObserver

private theorem keepsToRoutine {moment : Moment} (cycles : moment.call = .cycle) :
    moment.KeepsToRoutine := by
  obtain ⟨ready, performed, outcome⟩ :=
    moment.before.machine.exists_keptBeyond_cycle moment.before.table
  rw [← machine_after_of_cycle cycles, ← completes_of_cycle cycles] at outcome
  have unwritten {place : Place} (further : place ≠ .counter)
      (idle : ∀ routine ∈ place.writers, moment.routine? ≠ some routine) :
      place ∉ moment.before.machine.untickedWrites moment.before.table :=
    Machine.not_mem_untickedWrites further idle
  refine
    { memory := ?_, clock := ?_, screen := ?_, slots := ?_, keypad := ?_
      table := moment.table_after, screenObserver := ?_, buzzerObserver := ?_ }
  · intro other
    rw [outcome, ← performed.memory_eq fun address => unwritten nofun (by simpa [Place.writers])]
    split <;> rfl
  · intro other clock
    rw [outcome, ← performed.clock clock (unwritten nofun (by simpa [Place.writers]))]
    split
    · exact ready.clock_tick clock
    · rfl
  · intro control draw
    have unpainted := @unwritten .screen nofun
      (by simpa [Place.writers] using ⟨control, draw⟩)
    rw [outcome, ← performed.screen unpainted]
    split <;> rfl
  · intro other
    rw [outcome, ← performed.slots_eq fun position => unwritten nofun (by simpa [Place.writers])]
    split <;> rfl
  · rw [outcome, ← performed.keypad]
    split <;> rfl
  · rw [after, response_of_cycle cycles]
    rfl
  · rw [after, response_of_cycle cycles]
    rfl

end Moment

/-! ### Runs -/

namespace Emulator

def writes (emulator : Emulator) (count : Nat) : List Place :=
  (List.range count).flatMap fun earlier =>
    let reached := emulator.afterCycles earlier
    reached.machine.writes reached.table

private theorem keptBeyond_afterCycles (emulator : Emulator) (count : Nat) :
    emulator.machine.KeptBeyond (emulator.writes count) (emulator.afterCycles count).machine := by
  induction count with
  | zero => exact .refl _ emulator.machine
  | succ count inductionHypothesis =>
      let reached := emulator.afterCycles count
      have next := reached.machine.keptBeyond_cycle reached.table
      rw [afterCycles_succ, writes, List.range_succ, List.flatMap_append, List.flatMap_singleton]
      exact inductionHypothesis.append next

/-- A part of the emulator that calls set outright holds what the latest of them set. -/
theorem view_after {α : Type} (view : Emulator → α) (set? : Call → Option α)
    (step : ∀ emulator call,
      view (emulator.perform call).emulator = (set? call).getD (view emulator))
    (emulator : Emulator) (calls : List Call) :
    view (emulator.after calls) = ((calls.filterMap set?).getLast?).getD (view emulator) := by
  induction calls generalizing emulator with
  | nil => rfl
  | cons call rest inductionHypothesis =>
      rw [after, inductionHypothesis, step]
      cases outcome : set? call with
      | none => rw [List.filterMap_cons_none outcome]; rfl
      | some value =>
          rw [List.filterMap_cons_some outcome, List.getLast?_cons]
          rfl

end Emulator

def Call.screenObserver? : Call → Option (Option String)
  | .observeScreen observer => some observer
  | _ => none

def Call.buzzerObserver? : Call → Option (Option String)
  | .observeBuzzer observer => some observer
  | _ => none

def Call.keyState? (key : Key) : Call → Option Bool
  | .reset => some false
  | .setKey index down => if index = key.val then some down else none
  | _ => none

namespace Emulator

private theorem buzzerObserver_act (emulator : Emulator) (action : Machine → Step Failure) :
    (emulator.act action).emulator.buzzerObserver = emulator.buzzerObserver := rfl

private theorem screenObserver_perform (emulator : Emulator) (call : Call) :
    (emulator.perform call).emulator.screenObserver =
      call.screenObserver?.getD emulator.screenObserver := by
  cases call with
  | reset =>
      rw [perform]
      exact emulator.screenObserver_act _
  | _ => rfl

private theorem buzzerObserver_perform (emulator : Emulator) (call : Call) :
    (emulator.perform call).emulator.buzzerObserver =
      call.buzzerObserver?.getD emulator.buzzerObserver := by
  cases call with
  | reset =>
      rw [perform]
      exact emulator.buzzerObserver_act _
  | _ => rfl

theorem isDown_perform (key : Key) (emulator : Emulator) (call : Call) :
    (emulator.perform call).emulator.machine.keypad.isDown key =
      (call.keyState? key).getD (emulator.machine.keypad.isDown key) := by
  cases call with
  | reset => exact Keypad.isDown_released key
  | load program =>
      exact emulator.machine.view_load (·.keypad.isDown key) (fun _ _ _ => rfl) program
  | loadFrom source =>
      exact emulator.machine.view_loadFrom (·.keypad.isDown key) (fun _ _ _ => rfl) source
  | cycle =>
      exact congrArg (Keypad.isDown · key) (emulator.machine.keypad_cycle emulator.table)
  | frame count =>
      apply Machine.frame_preserves fun machine =>
        machine.keypad.isDown key = emulator.machine.keypad.isDown key
      · intro machine same
        rw [machine.keypad_cycle, same]
      · rfl
  | setKey index down =>
      change (emulator.machine.keypad.setIndex index down).isDown key = _
      rw [Keypad.isDown_setIndex, Call.keyState?]
      split <;> rfl
  | _ => rfl

/-- A routine changes nothing but the places that it writes, whichever opcode it is given and
whether it succeeds or fails, and the places leave out no part of a machine. Under any table,
whatever the host calls, each cycle keeps to what its routine writes, and cycles in a row change
nothing but what each of them writes. The table is the one that the emulator started with, and both
observers and all keys are as the host last set them. -/
theorem runs_keep_to_writes (emulator : Emulator) (calls : List Call) :
    (∀ (routine : Routine) (opcode : Opcode) (machine : Machine),
      machine.KeptBeyond (routine.writes opcode machine)
        (routine.perform opcode machine).machine) ∧
      (∀ before after : Machine, before.KeptBeyond [] after → after = before) ∧
      (∀ moment ∈ emulator.history calls, moment.call = .cycle → moment.KeepsToRoutine) ∧
      let reached := emulator.after calls
      (∀ count, reached.machine.KeptBeyond (reached.writes count)
        (reached.afterCycles count).machine) ∧
        reached.table = emulator.table ∧
        reached.screenObserver =
          ((calls.filterMap Call.screenObserver?).getLast?).getD emulator.screenObserver ∧
        reached.buzzerObserver =
          ((calls.filterMap Call.buzzerObserver?).getLast?).getD emulator.buzzerObserver ∧
        ∀ key, reached.machine.keypad.isDown key =
          ((calls.filterMap (Call.keyState? key)).getLast?).getD
            (emulator.machine.keypad.isDown key) := by
  refine ⟨fun routine opcode machine => routine.keptBeyond_perform opcode machine,
    fun _ _ kept => kept.eq_of_nil, fun moment _ cycles => moment.keepsToRoutine cycles, ?_⟩
  intro reached
  refine ⟨reached.keptBeyond_afterCycles, emulator.table_after calls, ?_, ?_, ?_⟩
  · exact view_after Emulator.screenObserver _ screenObserver_perform emulator calls
  · exact view_after Emulator.buzzerObserver _ buzzerObserver_perform emulator calls
  · intro key
    exact view_after (·.machine.keypad.isDown key) _ (isDown_perform key) emulator calls

end Emulator

end Chip8
