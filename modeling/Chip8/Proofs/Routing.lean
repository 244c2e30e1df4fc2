import Chip8.Routine.Table

/-!
Tables that are edited. After any number of edits, the last one that names a family decides what
handles its opcodes, and where no edit names it, the table that was there at first does. Edits of
different families do not depend on their order, and an edit makes those before it that name the
same family irrelevant.
-/

namespace Chip8

inductive Edit (Handler : Type)
  | register (selector : UInt8) (handler : Handler)
  | unregister (selector : UInt8)

variable {Handler : Type}

namespace Edit

def selector : Edit Handler → UInt8
  | .register selector _ => selector
  | .unregister selector => selector

def handler? : Edit Handler → Option Handler
  | .register _ handler => some handler
  | .unregister _ => none

/-- The last edit whose selector has a family's number in its low four bits. -/
def last? (edits : List (Edit Handler)) (family : Nat) : Option (Edit Handler) :=
  (edits.filter fun edit => (edit.selector &&& 0xF).toNat == family).getLast?

theorem last?_cons (edit : Edit Handler) (rest : List (Edit Handler)) (family : Nat) :
    last? (edit :: rest) family =
      (last? rest family).or
        (if (edit.selector &&& 0xF).toNat = family then some edit else none) := by
  simp only [last?, List.filter_cons, beq_iff_eq]
  split
  · rw [List.getLast?_cons]
    cases (rest.filter _).getLast? <;> rfl
  · rw [Option.or_none]

private theorem last?_append (first second : List (Edit Handler)) (family : Nat) :
    last? (first ++ second) family = (last? second family).or (last? first family) := by
  rw [last?, List.filter_append, List.getLast?_append]
  rfl

end Edit

namespace Table

def map {Other : Type} (rename : Handler → Other) (table : Table Handler) : Table Other :=
  { slots := table.slots.map (Option.map rename) }

def edit (table : Table Handler) : Edit Handler → Table Handler
  | .register selector handler => table.register selector handler
  | .unregister selector => table.unregister selector

def revise (table : Table Handler) (edits : List (Edit Handler)) : Table Handler :=
  edits.foldl edit table

/-! ### Slots -/

theorem toNat_and_fifteen (selector : UInt8) :
    (selector &&& 0xF).toNat = (family selector).val := by
  rw [UInt8.toNat_and]
  exact Nat.and_two_pow_sub_one_eq_mod selector.toNat 4

theorem ext_slots {one other : Table Handler}
    (same : ∀ family : Nibble, one.slots.get family = other.slots.get family) : one = other := by
  apply Table.ext
  apply Vector.ext
  intro position within
  exact same ⟨position, within⟩

theorem slots_edit (table : Table Handler) (change : Edit Handler) (number : Nibble) :
    (table.edit change).slots.get number =
      if (change.selector &&& 0xF).toNat = number.val then change.handler?
      else table.slots.get number := by
  cases change with
  | register selector handler =>
      rw [Edit.selector, toNat_and_fifteen]
      exact Vector.getElem_set (family selector).isLt number.isLt
  | unregister selector =>
      rw [Edit.selector, toNat_and_fifteen]
      exact Vector.getElem_set (family selector).isLt number.isLt

/-- The last edit of a family decides, whatever came before it. -/
theorem slots_revise (table : Table Handler) (edits : List (Edit Handler)) (number : Nibble) :
    (table.revise edits).slots.get number =
      ((Edit.last? edits number.val).map Edit.handler?).getD (table.slots.get number) := by
  induction edits generalizing table with
  | nil => rfl
  | cons change rest inductionHypothesis =>
      refine (inductionHypothesis (table.edit change)).trans ?_
      rw [slots_edit, Edit.last?_cons]
      cases Edit.last? rest number.val with
      | some later => rfl
      | none =>
          rw [Option.none_or]
          split <;> rfl

/-- Tables that had the same edits of each family last, and the same slots before, are the same. -/
theorem revise_congr {one other : Table Handler} {edits others : List (Edit Handler)}
    (same : ∀ number : Nibble,
      ((Edit.last? edits number.val).map Edit.handler?).getD (one.slots.get number) =
        ((Edit.last? others number.val).map Edit.handler?).getD (other.slots.get number)) :
    one.revise edits = other.revise others := by
  apply ext_slots
  intro number
  rw [slots_revise, slots_revise]
  exact same number

private theorem edit_comm (table : Table Handler) {one other : Edit Handler}
    (different : one.selector &&& 0xF ≠ other.selector &&& 0xF) :
    (table.edit one).edit other = (table.edit other).edit one := by
  apply ext_slots
  intro number
  simp only [slots_edit]
  by_cases first : (one.selector &&& 0xF).toNat = number.val
  · have apart : ¬(other.selector &&& 0xF).toNat = number.val := fun second =>
      different (UInt8.toNat_inj.mp (first.trans second.symm))
    rw [if_neg apart, if_pos first, if_pos first]
  · rw [if_neg first, if_neg first]

private theorem revise_of_overruled (table : Table Handler)
    (before between after : List (Edit Handler)) {earlier later : Edit Handler}
    (same : earlier.selector &&& 0xF = later.selector &&& 0xF) :
    table.revise (before ++ earlier :: between ++ later :: after) =
      table.revise (before ++ between ++ later :: after) := by
  apply revise_congr
  intro number
  simp only [Edit.last?_append, Edit.last?_cons, same]
  by_cases named : (later.selector &&& 0xF).toNat = number.val
  · rw [if_pos named]
    cases Edit.last? after number.val <;> rfl
  · rw [if_neg named, if_neg named, Option.or_none, Option.or_none]

/-! ### Dispatching -/

private theorem handles_word (table : Table Handler) (opcode : Opcode) :
    table.handles (UInt8.ofNat (opcode.word.toNat / 0x1000)) =
      (table.slots.get opcode.family).isSome := by
  have named : family (UInt8.ofNat (opcode.word.toNat / 0x1000)) = opcode.family := by
    have bound := opcode.family.isLt
    apply Fin.ext
    rw [opcode.family_val] at *
    rw [family, Nibble.val_ofNat, UInt8.toNat_ofNat']
    omega
  exact congrArg (fun number : Nibble => (table.slots.get number).isSome) named

private theorem dispatchBy_congr {ε : Type} (perform : Handler → Opcode → Machine → Step ε)
    {one other : Table Handler} {opcode : Opcode}
    (same : one.slots.get opcode.family = other.slots.get opcode.family) (machine : Machine) :
    one.dispatchBy perform opcode machine = other.dispatchBy perform opcode machine := by
  rw [dispatchBy, same, dispatchBy]

private theorem handles_empty (selector : UInt8) :
    (empty : Table Handler).handles selector = false :=
  congrArg Option.isSome (Vector.getElem_replicate (family selector).isLt)

private theorem handles_map {Other : Type} (rename : Handler → Other) (table : Table Handler)
    (selector : UInt8) : (table.map rename).handles selector = table.handles selector :=
  (congrArg Option.isSome (Vector.getElem_map _ (family selector).isLt)).trans Option.isSome_map

private theorem handles_standard (selector : UInt8) :
    RoutineTable.standard.handles selector = true := by
  have full : ∀ number : Nibble, (RoutineTable.standard.slots.get number).isSome = true := by decide
  exact full (family selector)

/-- After edits of a table, a family has a handler if the last edit that names it gave it one, or if
none names it and it had one before. An opcode is carried out, as a whole, by what the last edit of
its family named, or else by what the table had at first. Where there is no handler, it is reported
and nothing changes. Edits of different families can change places, and an edit that is followed by
one of the same family could as well be left out. -/
theorem last_edit_wins {ε : Type} (perform : Handler → Opcode → Machine → Step ε)
    (base : Table Handler) (edits : List (Edit Handler)) :
    let table := base.revise edits
    (∀ selector : UInt8,
      let last := Edit.last? edits (selector &&& 0xF).toNat
      table.handles selector = true ↔
        (∃ named handler, last = some (.register named handler)) ∨
          last = none ∧ base.handles selector = true) ∧
      ((∀ selector, (empty : Table Handler).handles selector = false) ∧
        ∀ (named : Routine → Handler) (selector : UInt8),
          (RoutineTable.standard.map named).handles selector = true) ∧
      (∀ (opcode : Opcode) (machine : Machine),
        let family := opcode.word.toNat / 0x1000
        let last := Edit.last? edits family
        let outcome := table.dispatchBy perform opcode machine
        (∀ named handler, last = some (.register named handler) →
          outcome = perform handler opcode machine) ∧
          (last = none → outcome = base.dispatchBy perform opcode machine) ∧
          (table.handles (UInt8.ofNat family) = false →
            let notice : Notice := .unimplemented opcode
            outcome = { machine := machine, signals := [.noticed notice], failure := none } ∧
              notice.level = .warning ∧ notice.text = "unimplemented opcode " ++ opcode.text)) ∧
      (∀ one other : Edit Handler, one.selector &&& 0xF ≠ other.selector &&& 0xF →
        (table.edit one).edit other = (table.edit other).edit one) ∧
      ∀ (earlier later : Edit Handler) (between after : List (Edit Handler)),
        earlier.selector &&& 0xF = later.selector &&& 0xF →
          base.revise (edits ++ earlier :: between ++ later :: after) =
            base.revise (edits ++ between ++ later :: after) := by
  intro table
  refine ⟨?_, ⟨handles_empty, ?_⟩, ?_, ?_, ?_⟩
  · intro selector last
    have slot : table.slots.get (family selector) =
        (last.map Edit.handler?).getD (base.slots.get (family selector)) := by
      unfold last
      rw [toNat_and_fifteen]
      exact slots_revise base edits (family selector)
    rw [handles, slot, handles]
    rcases last with _ | ⟨named, handler⟩ | named
    · simp
    · simp [Edit.handler?]
    · simp [Edit.handler?]
  · intro named selector
    rw [handles_map, handles_standard]
  · intro opcode machine family last outcome
    have slot : table.slots.get opcode.family =
        (last.map Edit.handler?).getD (base.slots.get opcode.family) := by
      unfold last family
      rw [← opcode.family_val]
      exact slots_revise base edits opcode.family
    refine ⟨?_, ?_, ?_⟩
    · intro named handler registered
      rw [registered] at slot
      unfold outcome
      rw [dispatchBy, slot]
      rfl
    · intro unnamed
      rw [unnamed] at slot
      exact dispatchBy_congr perform slot machine
    · intro unhandled notice
      rw [handles_word, Option.isSome_eq_false_iff, Option.isNone_iff_eq_none] at unhandled
      refine ⟨?_, rfl, rfl⟩
      unfold outcome
      rw [dispatchBy, unhandled]
      rfl
  · intro one other different
    exact table.edit_comm different
  · intro earlier later between after same
    exact base.revise_of_overruled edits between after same

end Table

end Chip8
