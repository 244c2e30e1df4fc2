import Chip8.Proofs.Noninterference
import Chip8.Proofs.Transfer

/-!
Loading a program. It does not matter in which chunks a source delivers a program. One that arrives
whole and fits replaces exactly the bytes from the start of programs on that it has bytes for, and
sends the program counter there. One that is too large, or whose source breaks off after any part
of it, changes nothing at all.
-/

namespace Chip8

/-- A source delivers bytes in chunks, none of them empty, and then breaks off for a reason or has
nothing left. An empty chunk means the end, whatever lies behind it. -/
inductive Source.Delivers : Source → List UInt8 → Option String → Prop
  | drained {chunks : List (List UInt8)} (nonempty : [] ∉ chunks) (failure : Option String) :
      Delivers { chunks := chunks, failure := failure } chunks.flatten failure
  | ended {chunks : List (List UInt8)} (nonempty : [] ∉ chunks) (rest : List (List UInt8))
      (failure : Option String) :
      Delivers { chunks := chunks ++ [] :: rest, failure := failure } chunks.flatten none

private theorem Fault.message_programTooLarge (size : Nat) :
    (programTooLarge size).message =
      s!"input program is too large ({size} bytes, at most 3584 allowed)" := by
  have tail : toString " bytes, at most " ++ toString programCapacity ++ toString " allowed)" =
      toString " bytes, at most 3584 allowed)" := by decide
  rw [message.eq_def]
  simp only [← tail, String.append_assoc]

namespace Source

theorem gather_append {chunks : List (List UInt8)} (nonempty : [] ∉ chunks)
    (failure : Option String) (rest : List (List UInt8)) :
    gather failure (chunks ++ rest) = (gather failure rest).map (chunks.flatten ++ ·) := by
  induction chunks with
  | nil =>
      rw [List.nil_append]
      cases gather failure rest <;> rfl
  | cons chunk others inductionHypothesis =>
      rw [List.mem_cons, not_or] at nonempty
      cases chunk with
      | nil => exact absurd rfl nonempty.1
      | cons byte bytes =>
          rw [List.cons_append, gather, inductionHypothesis nonempty.2]
          · cases gather failure rest with
            | error cause => rfl
            | ok later => simp only [Except.map, List.flatten_cons, List.append_assoc]
          · exact List.cons_ne_nil byte bytes

variable {source : Source} {program : List UInt8}

/-- Reading to the end collects the chunks, however the bytes are split into them. -/
theorem Delivers.contents_eq_ok (delivers : source.Delivers program none) :
    source.contents = .ok program := by
  cases delivers with
  | drained nonempty =>
      have gathered := gather_append nonempty none []
      rw [List.append_nil] at gathered
      refine gathered.trans (congrArg Except.ok ?_)
      exact List.append_nil _
  | ended nonempty rest failure =>
      refine (gather_append nonempty failure _).trans (congrArg Except.ok ?_)
      exact List.append_nil _

/-- What had arrived before a source broke off is not looked at. -/
theorem Delivers.contents_eq_error {reason : String}
    (delivers : source.Delivers program (some reason)) :
    source.contents = .error ((Fault.unreadable reason).during .readingProgram) := by
  cases delivers with
  | drained nonempty =>
      have gathered := gather_append nonempty (some reason) []
      rw [List.append_nil] at gathered
      exact gathered

/-- Every source delivers some bytes and then ends or breaks off. -/
theorem exists_delivers (source : Source) :
    ∃ program failure, source.Delivers program failure := by
  obtain ⟨chunks, failure⟩ := source
  by_cases empty : [] ∈ chunks
  · obtain ⟨earlier, rest, split, nonempty⟩ := List.eq_append_cons_of_mem empty
    rw [split]
    exact ⟨_, _, .ended nonempty rest failure⟩
  · exact ⟨_, _, .drained empty failure⟩

end Source

namespace Emulator

variable (emulator : Emulator) {program : List UInt8}

private theorem perform_load_of_le (fits : program.length ≤ programCapacity) :
    emulator.perform (.load program) =
      { emulator :=
          { emulator with
            machine :=
              { emulator.machine with
                memory := emulator.machine.memory.overwrite programStart program
                counter := UInt16.ofNat programStart } }
        outputs :=
          if emulator.verbosity.keeps .debug then [.line (.programLoaded program.length)] else []
        reply := .done } := by
  let notice : Notice := .programLoaded program.length
  have told : [Signal.noticed notice].filterMap emulator.deliver? =
      if emulator.verbosity.keeps .debug then [.line notice] else [] := by
    by_cases kept : emulator.verbosity.keeps .debug = true
    · have heard : emulator.deliver? (.noticed notice) = some (.line notice) := if_pos kept
      rw [if_pos kept, List.filterMap_cons_some heard, List.filterMap_nil]
    · have unheard : emulator.deliver? (.noticed notice) = none := if_neg kept
      rw [if_neg kept, List.filterMap_cons_none unheard, List.filterMap_nil]
  rw [perform, act, Machine.load_of_le fits, ← told]
  rfl

private theorem perform_load_of_lt (tooLarge : programCapacity < program.length) :
    emulator.perform (.load program) =
      { emulator := emulator
        outputs := []
        reply := .failed (Fault.programTooLarge program.length).bare } := by
  rw [perform, act, Machine.load_of_lt tooLarge]
  rfl

private theorem perform_loadFrom_of_ok {source : Source} (arrived : source.contents = .ok program) :
    emulator.perform (.loadFrom source) = emulator.perform (.load program) := by
  simp only [perform, act, Machine.loadFrom, arrived]

private theorem perform_loadFrom_of_error {source : Source} {failure : Failure}
    (broken : source.contents = .error failure) :
    emulator.perform (.loadFrom source) =
      { emulator := emulator
        outputs := []
        reply := .failed failure } := by
  simp only [perform, act, Machine.loadFrom, broken]
  rfl

/-- Loading is all or nothing. A source that delivers the whole program, in whatever chunks, does
exactly what the program itself does. The program is accepted if it fits behind the start of
programs, and then its bytes are in place, the program counter points at the first of them, and
nothing else has changed. If it does not fit, its whole length is reported and nothing has changed,
and neither has it if the source breaks off, however much had arrived by then. -/
theorem loading_all_or_nothing (program : List UInt8) :
    let response := emulator.perform (.load program)
    let before := emulator.machine
    let after := response.emulator.machine
    (∀ source : Source, source.Delivers program none →
      emulator.perform (.loadFrom source) = response) ∧
      (response.reply = .done ↔ program.length ≤ 3584) ∧
      (program.length ≤ 3584 →
        (∀ offset, ∀ within : offset < program.length,
          after.memory.cells[0x200 + offset]? = some program[offset]) ∧
          after.memory.DiffersWithin before.memory 0x200 program.length ∧
          after.counter = 0x200 ∧
          response.emulator =
            { emulator with
              machine := { before with memory := after.memory, counter := after.counter } } ∧
          response.outputs =
            if emulator.verbosity.keeps .debug then [.line (.programLoaded program.length)]
            else []) ∧
      (3584 < program.length →
        response =
            { emulator := emulator
              outputs := []
              reply := .failed (Fault.programTooLarge program.length).bare } ∧
          response.reply.texts? =
            some [s!"input program is too large ({program.length} bytes, at most 3584 allowed)"]) ∧
      ∀ (source : Source) (reason : String), source.Delivers program (some reason) →
        let refused := emulator.perform (.loadFrom source)
        refused =
            { emulator := emulator
              outputs := []
              reply := .failed ((Fault.unreadable reason).during .readingProgram) } ∧
          refused.reply.texts? = some ["could not read program data", reason] := by
  intro response before after
  have capacity : programCapacity = 3584 := rfl
  refine ⟨?_, ?_, ?_, ?_, ?_⟩
  · intro source delivers
    exact emulator.perform_loadFrom_of_ok delivers.contents_eq_ok
  · constructor
    · intro done
      apply Nat.le_of_not_lt
      intro tooLarge
      have refused : response = _ := emulator.perform_load_of_lt tooLarge
      rw [refused] at done
      cases done
    · intro fits
      exact congrArg Response.reply (emulator.perform_load_of_le fits)
  · intro fits
    have loaded : response = _ := emulator.perform_load_of_le fits
    have memory : after.memory = before.memory.overwrite programStart program :=
      congrArg (fun response => response.emulator.machine.memory) loaded
    have counter : after.counter = UInt16.ofNat programStart :=
      congrArg (fun response => response.emulator.machine.counter) loaded
    refine ⟨?_, ?_, counter, ?_, ?_⟩
    · intro offset within
      rw [memory]
      apply before.memory.getElem?_overwrite_offset
      · have start : programStart + programCapacity = memorySize := rfl
        omega
      · exact List.getElem?_eq_getElem within
    · rw [memory]
      exact before.memory.differsWithin_overwrite programStart program
    · rw [memory, counter]
      exact congrArg Response.emulator loaded
    · exact congrArg Response.outputs loaded
  · intro tooLarge
    have refused : response = _ := emulator.perform_load_of_lt tooLarge
    refine ⟨refused, ?_⟩
    rw [refused, ← Fault.message_programTooLarge]
    rfl
  · intro source reason delivers refused
    have broken : refused = _ := emulator.perform_loadFrom_of_error delivers.contents_eq_error
    refine ⟨broken, ?_⟩
    rw [broken]
    rfl

end Emulator

end Chip8
