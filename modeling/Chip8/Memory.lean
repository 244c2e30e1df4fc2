import Chip8.Fault
import Chip8.Glyph
import Chip8.Layout

/-!
The 4096 bytes of memory. Reads and block accesses are checked: a block is a `Span`,
which can only be formed inside memory, and the address reported for a block that does
not fit is that of its last byte.

The check adds up words of 64 bits, and a sum that overflows ends the program. `Span.of?`,
`slice?` and `store?` take any words and are none in that case; below it they are `Span.of`,
`slice` and `store`. A routine names its block by a 16-bit register, so no sum of it overflows.
-/

namespace Chip8

@[ext]
structure Memory where
  cells : Vector UInt8 memorySize
  deriving DecidableEq

/-- Consecutive addresses inside memory. An empty span may start just past the end. -/
structure Span where
  start : Nat
  length : Nat
  within : start + length ≤ memorySize

namespace Span

def of (start length : Nat) : Except Fault Span :=
  if within : start + length ≤ memorySize then
    .ok
      { start := start
        length := length
        within := within }
  else .error (.addressOutOfBounds (start + max length 1 - 1))

def of? (start length : Nat) : Option (Except Fault Span) :=
  if UInt64.size ≤ start + length then none
  else if within : start + length ≤ memorySize then
    some
      (.ok
        { start := start
          length := length
          within := within })
  else if UInt64.size ≤ start + max length 1 then none
  else some (.error (.addressOutOfBounds (start + max length 1 - 1)))

theorem of_of_le {start length : Nat} (within : start + length ≤ memorySize) :
    of start length =
      .ok
        { start := start
          length := length
          within := within } := dif_pos within

theorem of_of_lt {start length : Nat} (beyond : memorySize < start + length) :
    of start length = .error (.addressOutOfBounds (start + max length 1 - 1)) :=
  dif_neg (Nat.not_le_of_lt beyond)

theorem of_eq_ok {start length : Nat} {span : Span} (formed : of start length = .ok span) :
    span.start = start ∧ span.length = length := by
  unfold of at formed
  split at formed
  · cases formed
    exact ⟨rfl, rfl⟩
  · cases formed

theorem of_eq_error_iff {start length : Nat} {fault : Fault} :
    of start length = .error fault ↔
      memorySize < start + length ∧ fault = .addressOutOfBounds (start + max length 1 - 1) := by
  constructor
  · intro failed
    by_cases within : start + length ≤ memorySize
    · rw [of_of_le within] at failed
      cases failed
    · have beyond := Nat.lt_of_not_le within
      rw [of_of_lt beyond] at failed
      cases failed
      exact ⟨beyond, rfl⟩
  · rintro ⟨beyond, cause⟩
    rw [of_of_lt beyond, cause]

end Span

theorem vector_ext_getElem? {α : Type} {size : Nat} {one other : Vector α size}
    (same : ∀ position : Nat, one[position]? = other[position]?) : one = other := by
  apply Vector.toList_inj.mp
  apply List.ext_getElem?
  intro position
  rw [Vector.getElem?_toList, Vector.getElem?_toList]
  exact same position

namespace Memory

def blank : Memory :=
  { cells := Vector.replicate memorySize 0 }

def read (memory : Memory) (address : Nat) : Except Fault UInt8 :=
  match memory.cells[address]? with
  | some byte => .ok byte
  | none => .error (.addressOutOfBounds address)

/-- Places bytes one after the other; what would lie past the end is dropped. -/
def overwrite (memory : Memory) : Nat → List UInt8 → Memory
  | _, [] => memory
  | address, byte :: rest =>
      Memory.overwrite { cells := memory.cells.setIfInBounds address byte } (address + 1) rest

def window (memory : Memory) (span : Span) : List UInt8 :=
  List.ofFn fun offset : Fin span.length =>
    memory.cells.get ⟨span.start + offset.val, by have within := span.within; omega⟩

def slice (memory : Memory) (start length : Nat) : Except Fault (List UInt8) :=
  (Span.of start length).map memory.window

/-- Nothing is written unless everything fits. -/
def write (memory : Memory) (start : Nat) (bytes : List UInt8) : Except Fault Memory :=
  (Span.of start bytes.length).map fun span => memory.overwrite span.start bytes

/-- Writes a block, with the memory that there is afterwards in either case. -/
def store (memory : Memory) (start : Nat) (bytes : List UInt8) : Memory × Except Fault Unit :=
  match memory.write start bytes with
  | .ok written => (written, .ok ())
  | .error fault => (memory, .error fault)

def slice? (memory : Memory) (start length : Nat) : Option (Except Fault (List UInt8)) :=
  (Span.of? start length).map (Except.map memory.window)

def store? (memory : Memory) (start : Nat) (bytes : List UInt8) :
    Option (Memory × Except Fault Unit) :=
  match Span.of? start bytes.length with
  | some (.ok span) => some (memory.overwrite span.start bytes, .ok ())
  | some (.error fault) => some (memory, .error fault)
  | none => none

def initial : Memory := blank.overwrite glyphStart Glyph.bytes

theorem exists_byte (memory : Memory) {address : Nat} (inside : address < memorySize) :
    ∃ byte, memory.cells[address]? = some byte :=
  ⟨memory.cells[address], Vector.getElem?_eq_getElem inside⟩

theorem read_of_le (memory : Memory) {address : Nat} (outside : memorySize ≤ address) :
    memory.read address = .error (.addressOutOfBounds address) := by
  rw [read, Vector.getElem?_eq_none outside]

theorem slice_of_le (memory : Memory) {start length : Nat}
    (within : start + length ≤ memorySize) :
    memory.slice start length =
      .ok
        (memory.window
          { start := start
            length := length
            within := within }) := by
  rw [slice, Span.of_of_le within]
  rfl

theorem getElem?_overwrite (memory : Memory) (start : Nat) (bytes : List UInt8) (address : Nat) :
    (memory.overwrite start bytes).cells[address]? =
      if start ≤ address ∧ address < start + bytes.length ∧ address < memorySize then
        bytes[address - start]?
      else memory.cells[address]? := by
  induction bytes generalizing memory start with
  | nil =>
      rw [overwrite, if_neg]
      intro inside
      have upper := inside.2.1
      simp only [List.length_nil, Nat.add_zero] at upper
      omega
  | cons byte rest inductionHypothesis =>
      rw [overwrite, inductionHypothesis]
      by_cases first : address = start
      · subst first
        rw [if_neg (show ¬(address + 1 ≤ address ∧ _) by omega), Nat.sub_self]
        by_cases within : address < memorySize
        · rw [if_pos ⟨Nat.le_refl address, by simp only [List.length_cons]; omega, within⟩]
          simp only [Vector.getElem?_setIfInBounds_self_of_lt within, List.getElem?_cons_zero]
        · rw [if_neg (show ¬(_ ∧ _ ∧ address < memorySize) from fun inside => within inside.2.2)]
          rw [Vector.getElem?_eq_none (Nat.le_of_not_lt within),
            Vector.getElem?_eq_none (Nat.le_of_not_lt within)]
      · by_cases later : start + 1 ≤ address ∧ address < start + 1 + rest.length ∧
            address < memorySize
        · rw [if_pos later, if_pos (by simp only [List.length_cons]; omega)]
          have shift : address - start = (address - (start + 1)) + 1 := by omega
          rw [shift, List.getElem?_cons_succ]
        · rw [if_neg later, if_neg (by simp only [List.length_cons]; omega)]
          simp only [Vector.getElem?_setIfInBounds_ne (Ne.symm first)]

theorem getElem?_overwrite_offset (memory : Memory) {start : Nat} {bytes : List UInt8}
    {byte : UInt8} (offset : Nat) (inside : start + offset < memorySize)
    (present : bytes[offset]? = some byte) :
    (memory.overwrite start bytes).cells[start + offset]? = some byte := by
  obtain ⟨within, _⟩ := List.getElem?_eq_some_iff.mp present
  rw [getElem?_overwrite, if_pos ⟨Nat.le_add_right start offset, by omega, inside⟩,
    Nat.add_sub_cancel_left]
  exact present

theorem window_length (memory : Memory) (span : Span) :
    (memory.window span).length = span.length := by
  simp [window]

theorem getElem?_window (memory : Memory) (span : Span) {offset : Nat}
    (inside : offset < span.length) :
    (memory.window span)[offset]? = memory.cells[span.start + offset]? := by
  have within := span.within
  rw [List.getElem?_eq_getElem (by rw [window_length]; exact inside),
    Vector.getElem?_eq_getElem (by omega)]
  simp only [window, List.getElem_ofFn]
  rfl

/-- A window shows the bytes of its span and no others. -/
theorem window_congr {one other : Memory} {span : Span}
    (same : ∀ offset < span.length,
      one.cells[span.start + offset]? = other.cells[span.start + offset]?) :
    one.window span = other.window span := by
  apply List.ext_getElem
  · rw [window_length, window_length]
  · intro offset first second
    rw [window_length] at first
    have within := span.within
    have byte := same offset first
    rw [Vector.getElem?_eq_getElem (by omega), Vector.getElem?_eq_getElem (by omega),
      Option.some.injEq] at byte
    simp only [window, List.getElem_ofFn]
    exact byte

theorem window_overwrite (memory : Memory) {span : Span} {bytes : List UInt8}
    (length : bytes.length = span.length) :
    (memory.overwrite span.start bytes).window span = bytes := by
  apply List.ext_getElem?
  intro offset
  by_cases inside : offset < span.length
  · have within := span.within
    rw [getElem?_window _ _ inside, getElem?_overwrite, if_pos (by omega), Nat.add_sub_cancel_left]
  · have beyond := Nat.le_of_not_lt inside
    rw [List.getElem?_eq_none (by rw [window_length]; exact beyond),
      List.getElem?_eq_none (length ▸ beyond)]

theorem overwrite_window (memory : Memory) (span : Span) :
    memory.overwrite span.start (memory.window span) = memory := by
  apply Memory.ext
  apply vector_ext_getElem?
  intro address
  rw [getElem?_overwrite, window_length]
  split
  · next inside => rw [getElem?_window _ _ (by omega), Nat.add_sub_cancel' inside.1]
  · rfl

end Memory

end Chip8
