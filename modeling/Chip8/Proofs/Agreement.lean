import Chip8.Proofs.Footprint

/-!
A routine reads no place that it does not access: machines that agree on some places, among them
all that the routine accesses, still agree on them afterwards, and fail alike.
-/

namespace Chip8

structure Machine.AgreeOn (places : Store → Nat → Prop) (one other : Machine) : Prop where
  content : ∀ store position, places store position →
    one.content store position = other.content store position
  index : one.index = other.index
  counter : one.counter = other.counter
  changed : one.panel.changed = other.panel.changed
  delay : one.delay = other.delay
  sound : one.sound = other.sound
  depth : one.stack.depth = other.stack.depth
  keypad : one.keypad = other.keypad
  entropy : one.entropy = other.entropy

/-- Outcomes that agree; screens that are sent along are compared where all pixels are. -/
structure Step.AgreeOn {ε : Type} (places : Store → Nat → Prop) (one other : Step ε) :
    Prop where
  machine : one.machine.AgreeOn places other.machine
  failure : one.failure = other.failure
  signals : (∀ position < 2048, places .screen position) → one.signals = other.signals

def Access.Inside (places : Store → Nat → Prop) (access : Access) : Prop :=
  ∀ position, access.Covers access.store position → places access.store position

theorem Access.Inside.register {places : Store → Nat → Prop} {index : Nat}
    (inside : (Access.register index).Inside places) : places .registers index :=
  inside index (Access.covers_register index)

namespace Machine.AgreeOn

variable {places : Store → Nat → Prop} {one other : Machine}

/-! ### Reading alike -/

theorem register (agree : one.AgreeOn places other) (register : Register)
    (inside : places .registers register.val) :
    one.register register = other.register register := by
  have same := agree.content .registers register.val inside
  simp only [Machine.content, Vector.getElem?_eq_getElem register.isLt, Option.map_some,
    Option.some.injEq] at same
  exact UInt8.toNat_inj.mp same

theorem byte (agree : one.AgreeOn places other) {address : Nat}
    (inside : places .memory address) :
    one.memory.cells[address]? = other.memory.cells[address]? := by
  have same := agree.content .memory address inside
  simp only [Machine.content] at same
  exact (Option.map_inj_right fun _ _ => UInt8.toNat_inj.mp).mp same

theorem pixel (agree : one.AgreeOn places other) {position : Nat}
    (inside : places .screen position) :
    one.panel.screen.pixels[position]? = other.panel.screen.pixels[position]? := by
  have same := agree.content .screen position inside
  simp only [Machine.content] at same
  exact (Option.map_inj_right fun _ _ => UInt8.toNat_inj.mp).mp same

theorem window (agree : one.AgreeOn places other) (span : Span)
    (inside : (Access.bytes span.start span.length).Inside places) :
    one.memory.window span = other.memory.window span := by
  apply Memory.window_congr
  intro offset within
  exact agree.byte (inside (span.start + offset)
    (Access.covers_bytes (Nat.le_add_right _ _) (Nat.add_lt_add_left within _)))

/-! ### Writing alike -/

theorem setRegister (agree : one.AgreeOn places other) (register : Register) (value : UInt8) :
    (one.setRegister register value).AgreeOn places (other.setRegister register value) := by
  refine { agree with content := ?_ }
  intro store position inside
  cases store with
  | registers =>
      simp only [Machine.content, Machine.setRegister]
      rw [Vector.getElem?_set, Vector.getElem?_set]
      split
      · rfl
      · exact agree.content .registers position inside
  | _ => exact agree.content _ position inside

theorem overwrite (agree : one.AgreeOn places other) (start : Nat) (bytes : List UInt8) :
    { one with memory := one.memory.overwrite start bytes }.AgreeOn places
      { other with memory := other.memory.overwrite start bytes } := by
  refine { agree with content := ?_ }
  intro store position inside
  cases store with
  | memory =>
      simp only [Machine.content]
      rw [Memory.getElem?_overwrite, Memory.getElem?_overwrite]
      split
      · rfl
      · exact agree.content .memory position inside
  | _ => exact agree.content _ position inside

theorem fill (agree : one.AgreeOn places other) (values : List UInt8) :
    { one with registers := Routine.fillRegisters one.registers values }.AgreeOn places
      { other with registers := Routine.fillRegisters other.registers values } := by
  refine { agree with content := ?_ }
  intro store position inside
  have same := agree.content store position inside
  cases store with
  | registers =>
      simp only [Machine.content] at same ⊢
      by_cases within : position < 16
      · rw [Vector.getElem?_eq_getElem within, Vector.getElem?_eq_getElem within] at same ⊢
        simp only [Routine.fillRegisters, Vector.getElem_ofFn, List.getD_eq_getElem?_getD]
        cases values[position]? with
        | none => exact same
        | some value => rfl
      · rw [Vector.getElem?_eq_none (Nat.le_of_not_lt within),
          Vector.getElem?_eq_none (Nat.le_of_not_lt within)]
  | _ =>
      simp only [Machine.content] at same ⊢
      exact same

theorem clear (agree : one.AgreeOn places other) :
    { one with panel := one.panel.clear }.AgreeOn places
      { other with panel := other.panel.clear } := by
  refine { agree with content := ?_, changed := rfl }
  intro store position inside
  cases store with
  | screen => rfl
  | _ => exact agree.content _ position inside

theorem push (agree : one.AgreeOn places other) (address : UInt16) :
    (∃ fault, one.stack.push address = .error fault ∧
        other.stack.push address = .error fault) ∨
      ∃ first second, one.stack.push address = .ok first ∧
        other.stack.push address = .ok second ∧
          { one with stack := first }.AgreeOn places { other with stack := second } := by
  by_cases room : one.stack.depth < callCapacity
  · have otherRoom : other.stack.depth < callCapacity := agree.depth ▸ room
    refine .inr ⟨_, _, dif_pos room, dif_pos otherRoom, ?_⟩
    refine { agree with content := ?_, depth := congrArg (· + 1) agree.depth }
    intro store position inside
    cases store with
    | stack =>
        simp only [Machine.content]
        rw [Vector.getElem?_set, Vector.getElem?_set, agree.depth]
        split
        · rfl
        · exact agree.content .stack position inside
    | _ => exact agree.content _ position inside
  · have otherFull : ¬ other.stack.depth < callCapacity := agree.depth ▸ room
    refine .inl ⟨_, dif_neg room, ?_⟩
    rw [CallStack.push, dif_neg otherFull, agree.depth]

theorem pop (agree : one.AgreeOn places other)
    (inside : 0 < one.stack.depth → (Access.slot (one.stack.depth - 1)).Inside places) :
    (∃ fault, one.stack.pop = .error fault ∧ other.stack.pop = .error fault) ∨
      ∃ address first second, one.stack.pop = .ok (address, first) ∧
        other.stack.pop = .ok (address, second) ∧
          { one with stack := first }.AgreeOn places { other with stack := second } := by
  by_cases active : 0 < one.stack.depth
  · have otherActive : 0 < other.stack.depth := agree.depth ▸ active
    have bound := one.stack.depth_le
    have within : one.stack.depth - 1 < callCapacity := by omega
    obtain ⟨address, top⟩ : ∃ address, one.stack.slots[one.stack.depth - 1]? = some address :=
      ⟨_, Vector.getElem?_eq_getElem within⟩
    have same := agree.content .stack _ (inside active _ (Access.covers_slot _))
    simp only [Machine.content] at same
    have otherTop := (Option.map_inj_right fun _ _ => UInt16.toNat_inj.mp).mp same
    rw [top, agree.depth] at otherTop
    obtain ⟨first, popped, slots, depth⟩ := CallStack.pop_of_top active top
    obtain ⟨second, otherPopped, otherSlots, otherDepth⟩ :=
      CallStack.pop_of_top otherActive otherTop.symm
    refine .inr ⟨_, first, second, popped, otherPopped, ?_⟩
    refine { agree with content := ?_, depth := ?_ }
    · intro store position placed
      have kept := agree.content store position placed
      cases store with
      | stack =>
          simp only [Machine.content] at kept ⊢
          rw [slots, otherSlots]
          exact kept
      | _ => exact kept
    · change first.depth = second.depth
      rw [depth, otherDepth, agree.depth]
  · have inactive : ¬ 0 < other.stack.depth := agree.depth ▸ active
    exact .inl ⟨_, dif_neg active, dif_neg inactive⟩

theorem screen (agree : one.AgreeOn places other)
    (whole : ∀ position < 2048, places .screen position) :
    one.panel.screen = other.panel.screen := by
  apply Screen.ext
  apply Vector.ext
  intro position within
  have inside : position < 2048 := within
  have same := agree.pixel (whole position inside)
  rw [Vector.getElem?_eq_getElem within, Vector.getElem?_eq_getElem within] at same
  exact Option.some.inj same

end Machine.AgreeOn

/-! ### Drawing alike -/

namespace Screen

/-- Stamping keeps two screens alike on some positions if all the stamped cells are among them. -/
theorem foldl_stampCell_alike (among : Nat → Prop) {cells : List Cell}
    (inside : ∀ cell ∈ cells, among cell.val) {one other : Screen × Bool}
    (met : one.2 = other.2)
    (pixels : ∀ position, among position →
      one.1.pixels[position]? = other.1.pixels[position]?) :
    (cells.foldl stampCell one).2 = (cells.foldl stampCell other).2 ∧
      ∀ position, among position →
        (cells.foldl stampCell one).1.pixels[position]? =
          (cells.foldl stampCell other).1.pixels[position]? := by
  induction cells generalizing one other with
  | nil => exact ⟨met, pixels⟩
  | cons cell rest inductionHypothesis =>
      have pixel : one.1.pixels[cell] = other.1.pixels[cell] := by
        have same := pixels cell.val (inside cell List.mem_cons_self)
        rw [Vector.getElem?_eq_getElem cell.isLt, Vector.getElem?_eq_getElem cell.isLt] at same
        exact Option.some.inj same
      apply inductionHypothesis
      · exact (List.forall_mem_cons.mp inside).2
      · simp only [stampCell, lit, pixel, met]
      · intro position placed
        simp only [stampCell, toggle, pixel]
        rw [Vector.getElem?_set, Vector.getElem?_set]
        split
        · rfl
        · exact pixels position placed

end Screen

theorem Machine.AgreeOn.draw {places : Store → Nat → Prop} {one other : Machine}
    (agree : one.AgreeOn places other) {sprite : List UInt8} {column row : Nat}
    (inside : ∀ cell ∈ Screen.spriteCells sprite column row, places .screen cell.val) :
    (one.panel.draw sprite column row).2 = (other.panel.draw sprite column row).2 ∧
      { one with panel := (one.panel.draw sprite column row).1 }.AgreeOn places
        { other with panel := (other.panel.draw sprite column row).1 } := by
  obtain ⟨met, stamped⟩ := Screen.foldl_stampCell_alike (places .screen) inside
    (show (one.panel.screen, false).2 = (other.panel.screen, false).2 from rfl)
    (fun _ placed => agree.pixel placed)
  refine ⟨met, ?_⟩
  refine { agree with content := ?_, changed := rfl }
  intro store position placed
  cases store with
  | screen => exact congrArg (Option.map UInt8.toNat) (stamped position placed)
  | _ => exact agree.content _ position placed

/-! ### Routines -/

namespace Step.AgreeOn

variable {ε : Type} {places : Store → Nat → Prop} {one other : Machine}

theorem quiet (agree : one.AgreeOn places other) :
    (Step.quiet one : Step ε).AgreeOn places (.quiet other) :=
  ⟨agree, rfl, fun _ => rfl⟩

theorem sending (agree : one.AgreeOn places other) (signals : List Signal) :
    (Step.sending one signals : Step ε).AgreeOn places (.sending other signals) :=
  ⟨agree, rfl, fun _ => rfl⟩

theorem failing (agree : one.AgreeOn places other) (failure : ε) :
    (Step.failing one failure).AgreeOn places (.failing other failure) :=
  ⟨agree, rfl, fun _ => rfl⟩

end Step.AgreeOn

namespace Routine

variable {places : Store → Nat → Prop} {one other : Machine} {opcode : Opcode}

private theorem agreeOn_skipWhen (agree : one.AgreeOn places other) (condition : Bool) :
    (skipWhen condition one).AgreeOn places (skipWhen condition other) := by
  cases condition with
  | false => exact .quiet agree
  | true => exact .quiet { agree with counter := congrArg (· + 2) agree.counter }

private theorem agreeOn_runControl (agree : one.AgreeOn places other)
    (inside : ∀ access ∈ Routine.control.accesses opcode one, access.Inside places) :
    (runControl opcode one).AgreeOn places (runControl opcode other) := by
  simp only [runControl, accesses] at inside ⊢
  by_cases clears : opcode.word = 0x00E0
  · rw [if_pos clears, if_pos clears]
    exact .sending agree.clear _
  · rw [if_neg clears] at inside
    rw [if_neg clears, if_neg clears]
    by_cases leaves : opcode.word = 0x00EE
    · rw [if_pos leaves, if_pos leaves]
      have slot (active : 0 < one.stack.depth) :
          (Access.slot (one.stack.depth - 1)).Inside places := by
        rw [if_pos ⟨leaves, active⟩] at inside
        exact inside _ List.mem_cons_self
      rcases agree.pop slot with ⟨fault, empty, otherEmpty⟩ |
        ⟨address, first, second, popped, otherPopped, after⟩
      · rw [empty, otherEmpty]
        exact .failing agree fault
      · rw [popped, otherPopped]
        exact .quiet { after with counter := rfl }
    · rw [if_neg leaves, if_neg leaves]
      exact .sending agree _

private theorem agreeOn_runCall (agree : one.AgreeOn places other) (opcode : Opcode) :
    (runCall opcode one).AgreeOn places (runCall opcode other) := by
  simp only [runCall]
  rw [← agree.counter]
  rcases agree.push one.counter with ⟨fault, full, otherFull⟩ |
    ⟨first, second, pushed, otherPushed, after⟩
  · rw [full, otherFull]
    exact .failing agree fault
  · rw [pushed, otherPushed]
    exact .quiet { after with counter := rfl }

private theorem agreeOn_runArithmetic (agree : one.AgreeOn places other)
    (inside : ∀ access ∈ Routine.arithmetic.accesses opcode one, access.Inside places) :
    (runArithmetic opcode one).AgreeOn places (runArithmetic opcode other) := by
  have x := agree.register _ (inside _ List.mem_cons_self).register
  have y := agree.register _ (inside _ (List.mem_cons_of_mem _ List.mem_cons_self)).register
  simp only [runArithmetic, x, y]
  cases Arithmetic.ofCode? opcode.nibble.val with
  | none => exact .sending agree _
  | some operation =>
      dsimp only
      split
      · exact .quiet (agree.setRegister _ _)
      · exact .quiet ((agree.setRegister _ _).setRegister _ _)

private theorem agreeOn_runDraw (agree : one.AgreeOn places other)
    (inside : ∀ access ∈ Routine.draw.accesses opcode one, access.Inside places) :
    (runDraw opcode one).AgreeOn places (runDraw opcode other) := by
  simp only [accesses, List.forall_mem_append, List.forall_mem_cons] at inside
  obtain ⟨⟨insideX, insideY, _⟩, block⟩ := inside
  have x := agree.register _ insideX.register
  have y := agree.register _ insideY.register
  have span : Span.of other.index.toNat opcode.nibble.val =
      Span.of one.index.toNat opcode.nibble.val := by rw [agree.index]
  simp only [runDraw, Memory.slice, span, x, y]
  by_cases within : one.index.toNat + opcode.nibble.val ≤ 4096
  · rw [if_pos within] at block
    obtain ⟨bytes, _, cells⟩ := List.forall_mem_cons.mp block |>.imp id List.forall_mem_cons.mp
    rw [Span.of_of_le within]
    have sprite := agree.window ⟨one.index.toNat, opcode.nibble.val, within⟩ bytes
    have below : ∀ cell ∈ Screen.spriteCells
        (other.memory.window ⟨one.index.toNat, opcode.nibble.val, within⟩)
        (other.register opcode.x).toNat (other.register opcode.y).toNat,
        places .screen cell.val := by
      intro cell member
      have placed := Access.pixel_mem_sprite member
      rw [Memory.window_length, ← x, ← y] at placed
      exact cells _ placed _ (Access.covers_pixel cell.val)
    obtain ⟨met, drawn⟩ := agree.draw below
    simp only [Except.map, sprite, met]
    refine ⟨drawn.setRegister _ _, rfl, fun whole => ?_⟩
    exact congrArg (fun screen => [Signal.redrawn screen]) (drawn.screen whole)
  · rw [Span.of_of_lt (Nat.lt_of_not_le within)]
    exact .failing agree _

private theorem agreeOn_storeAtIndex (agree : one.AgreeOn places other)
    {bytes otherBytes : List UInt8} (length : otherBytes.length = bytes.length)
    (same : one.index.toNat + bytes.length ≤ 4096 → bytes = otherBytes) :
    (storeAtIndex bytes one).AgreeOn places (storeAtIndex otherBytes other) := by
  have span : Span.of other.index.toNat otherBytes.length =
      Span.of one.index.toNat bytes.length := by rw [agree.index, length]
  simp only [storeAtIndex, Memory.write, span]
  by_cases within : one.index.toNat + bytes.length ≤ 4096
  · have equal := same within
    subst equal
    rw [Span.of_of_le within]
    exact .quiet (agree.overwrite _ _)
  · rw [Span.of_of_lt (Nat.lt_of_not_le within)]
    exact .failing agree _

private theorem agreeOn_runRestore (agree : one.AgreeOn places other) {x : Register}
    (inside : one.index.toNat + (x.val + 1) ≤ 4096 →
      (Access.bytes one.index.toNat (x.val + 1)).Inside places) :
    (runRestore x one).AgreeOn places (runRestore x other) := by
  have span : Span.of other.index.toNat (x.val + 1) = Span.of one.index.toNat (x.val + 1) := by
    rw [agree.index]
  simp only [runRestore, Memory.slice, span]
  by_cases within : one.index.toNat + (x.val + 1) ≤ 4096
  · rw [Span.of_of_le within]
    have values := agree.window ⟨one.index.toNat, x.val + 1, within⟩ (inside within)
    simp only [Except.map, values]
    exact .quiet (agree.fill _)
  · rw [Span.of_of_lt (Nat.lt_of_not_le within)]
    exact .failing agree _

private theorem agreeOn_runAwaitKey (agree : one.AgreeOn places other) (x : Register) :
    (runAwaitKey x one).AgreeOn places (runAwaitKey x other) := by
  have lowest : other.keypad.lowest? = one.keypad.lowest? := by rw [agree.keypad]
  simp only [runAwaitKey, lowest]
  cases one.keypad.lowest? with
  | none => exact .quiet { agree with counter := congrArg (· - 2) agree.counter }
  | some key => exact .quiet (agree.setRegister x _)

private theorem agreeOn_runAuxiliary (agree : one.AgreeOn places other)
    (inside : ∀ access ∈ Routine.auxiliary.accesses opcode one, access.Inside places) :
    (runAuxiliary opcode one).AgreeOn places (runAuxiliary opcode other) := by
  simp only [runAuxiliary, accesses] at inside ⊢
  cases found : Auxiliary.ofCode? opcode.byte.toNat with
  | none => exact .sending agree _
  | some operation =>
      rw [found] at inside
      cases operation with
      | readDelay =>
          dsimp only
          rw [← agree.delay]
          exact .quiet (agree.setRegister _ _)
      | awaitKey => exact agreeOn_runAwaitKey agree opcode.x
      | setDelay =>
          have x := agree.register _ (inside _ List.mem_cons_self).register
          exact .quiet { agree with delay := congrArg Countdown.mk x }
      | setSound =>
          have x := agree.register _ (inside _ List.mem_cons_self).register
          exact .quiet { agree with sound := congrArg Countdown.mk x }
      | addIndex =>
          have x := agree.register _ (inside _ List.mem_cons_self).register
          dsimp only
          rw [x]
          have index := congrArg
            (fun index => (index + (other.register opcode.x).toUInt16) &&& 0x0FFF) agree.index
          exact .quiet { agree with index := index }
      | pointGlyph =>
          have x := agree.register _ (inside _ List.mem_cons_self).register
          dsimp only
          rw [x]
          exact .quiet { agree with index := rfl }
      | storeDecimal =>
          have x := agree.register _ (inside _ List.mem_cons_self).register
          dsimp only
          rw [x]
          exact agreeOn_storeAtIndex agree rfl (fun _ => rfl)
      | saveRegisters =>
          have bound := opcode.x.isLt
          apply agreeOn_storeAtIndex agree
          · rw [length_take_registers, length_take_registers]
          · intro within
            rw [length_take_registers] at within
            dsimp only at inside
            rw [if_pos within] at inside
            have registers := inside _ (List.mem_cons_of_mem _ List.mem_cons_self)
            apply List.ext_getElem
            · rw [length_take_registers, length_take_registers]
            · intro position first second
              rw [length_take_registers] at first
              have covered := registers position
                (Access.covers_registersUpTo (Nat.le_of_lt_succ first))
              simp only [List.getElem_take, Vector.getElem_toList]
              exact agree.register ⟨position, by omega⟩ covered
      | restoreRegisters =>
          apply agreeOn_runRestore agree
          intro within
          dsimp only at inside
          rw [if_pos within] at inside
          exact inside _ List.mem_cons_self

private theorem agreeOn_registers (agree : one.AgreeOn places other) {x y : Register}
    (inside : ∀ access ∈ [Access.register x.val, .register y.val], access.Inside places) :
    one.register x = other.register x ∧ one.register y = other.register y :=
  ⟨agree.register x (inside _ List.mem_cons_self).register,
    agree.register y (inside _ (List.mem_cons_of_mem _ List.mem_cons_self)).register⟩

/-- What a routine makes of a machine depends on no place that it does not access. -/
theorem agreeOn_perform (routine : Routine) (agree : one.AgreeOn places other)
    (inside : ∀ access ∈ routine.accesses opcode one, access.Inside places) :
    (routine.perform opcode one).AgreeOn places (routine.perform opcode other) := by
  have onlyX (sole : ∀ access ∈ [Access.register opcode.x.val], access.Inside places) :
      one.register opcode.x = other.register opcode.x :=
    agree.register _ (sole _ List.mem_cons_self).register
  cases routine with
  | control => exact agreeOn_runControl agree inside
  | jump => exact .quiet { agree with counter := rfl }
  | call => exact agreeOn_runCall agree opcode
  | skipEqualByte =>
      simp only [perform, runSkipEqualByte]
      rw [onlyX inside]
      exact agreeOn_skipWhen agree _
  | skipUnequalByte =>
      simp only [perform, runSkipUnequalByte]
      rw [onlyX inside]
      exact agreeOn_skipWhen agree _
  | skipEqualRegister =>
      simp only [perform, runSkipEqualRegister, accesses] at inside ⊢
      by_cases aligned : opcode.nibble.val = 0
      · rw [if_pos aligned] at inside
        obtain ⟨x, y⟩ := agreeOn_registers agree inside
        rw [if_neg (not_not_intro aligned), if_neg (not_not_intro aligned), x, y]
        exact agreeOn_skipWhen agree _
      · rw [if_pos aligned, if_pos aligned]
        exact .sending agree _
  | loadByte => exact .quiet (agree.setRegister _ _)
  | addByte =>
      simp only [perform, runAddByte]
      rw [onlyX inside]
      exact .quiet (agree.setRegister _ _)
  | arithmetic => exact agreeOn_runArithmetic agree inside
  | skipUnequalRegister =>
      simp only [perform, runSkipUnequalRegister, accesses] at inside ⊢
      by_cases aligned : opcode.nibble.val = 0
      · rw [if_pos aligned] at inside
        obtain ⟨x, y⟩ := agreeOn_registers agree inside
        rw [if_neg (not_not_intro aligned), if_neg (not_not_intro aligned), x, y]
        exact agreeOn_skipWhen agree _
      · rw [if_pos aligned, if_pos aligned]
        exact .sending agree _
  | loadIndex => exact .quiet { agree with index := rfl }
  | jumpOffset =>
      have base := agree.register Register.base (inside _ List.mem_cons_self).register
      simp only [perform, runJumpOffset, base]
      exact .quiet { agree with counter := rfl }
  | random =>
      have byte : other.entropy.next = one.entropy.next := by rw [agree.entropy]
      have drawn : { one with entropy := one.entropy.advance }.AgreeOn places
          { other with entropy := other.entropy.advance } :=
        { agree with entropy := congrArg Entropy.advance agree.entropy }
      simp only [perform, runRandom, byte]
      exact .quiet (drawn.setRegister _ _)
  | draw => exact agreeOn_runDraw agree inside
  | skipKey =>
      have down : other.keypad.isDown (Key.ofByte (other.register opcode.x)) =
          one.keypad.isDown (Key.ofByte (one.register opcode.x)) := by
        rw [onlyX inside, agree.keypad]
      simp only [perform, runSkipKey, down]
      split
      · exact agreeOn_skipWhen agree _
      · split
        · exact agreeOn_skipWhen agree _
        · exact .sending agree _
  | auxiliary => exact agreeOn_runAuxiliary agree inside

end Routine

/-- A routine keeps to places inside of the stores: it changes no others, and what it does depends
on no others. -/
structure Routine.KeepsTo (accesses : List Access) (routine : Routine) (opcode : Opcode)
    (machine : Machine) : Prop where
  inRange : ∀ access ∈ accesses, access.InRange
  confined : machine.SameBeyond accesses (routine.perform opcode machine).machine
  independent : ∀ places other, (∀ access ∈ accesses, access.Inside places) →
    machine.AgreeOn places other →
      (routine.perform opcode machine).AgreeOn places (routine.perform opcode other)

theorem Routine.keepsTo_accesses (routine : Routine) (opcode : Opcode) (machine : Machine) :
    routine.KeepsTo (routine.accesses opcode machine) opcode machine :=
  { inRange := routine.inRange_accesses opcode machine
    confined := routine.sameBeyond_perform opcode machine
    independent := fun _ _ inside agree => routine.agreeOn_perform agree inside }

end Chip8
