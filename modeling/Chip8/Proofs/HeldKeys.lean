import Chip8.Emulator.Call
import Mathlib.Data.Finset.Max
import Mathlib.Data.Fintype.Basic

/-!
The keys that are down, as a set. Whatever is done to a keypad and whatever the host sets by number,
its flags are those of a finite set of keys that goes through the same changes. The set tells what
is answered to every question, and its least element is the lowest key.
-/

namespace Chip8

/-- What can be done to the keys of an emulator, and what can be asked about them. The host names a
key by a number. -/
inductive KeyAction
  | press (key : Key)
  | release (key : Key)
  | set (key : Key) (down : Bool)
  | clear
  | host (index : Nat) (down : Bool)
  | isDown (key : Key)
  | lowest
  | isReleased

def KeyAction.asks : KeyAction → Bool
  | .isDown _ => true
  | .lowest => true
  | .isReleased => true
  | _ => false

inductive KeyAnswer
  | done
  | truth (holds : Bool)
  | key (found? : Option Key)
  deriving DecidableEq

namespace Emulator

def changeKeypad (emulator : Emulator) (change : Keypad → Keypad) : Emulator :=
  { emulator with machine := { emulator.machine with keypad := change emulator.machine.keypad } }

def handle (emulator : Emulator) : KeyAction → Emulator × KeyAnswer
  | .press key => (emulator.changeKeypad (Keypad.press · key), .done)
  | .release key => (emulator.changeKeypad (Keypad.release · key), .done)
  | .set key down => (emulator.changeKeypad (Keypad.set · key down), .done)
  | .clear => (emulator.changeKeypad Keypad.clear, .done)
  | .host index down => ((emulator.perform (.setKey index down)).emulator, .done)
  | .isDown key => (emulator, .truth (emulator.machine.keypad.isDown key))
  | .lowest => (emulator, .key emulator.machine.keypad.lowest?)
  | .isReleased => (emulator, .truth (emulator.machine.keypad = .released))

def handleAll (emulator : Emulator) : List KeyAction → Emulator × List KeyAnswer
  | [] => (emulator, [])
  | action :: rest =>
      let next := emulator.handle action
      let later := next.1.handleAll rest
      (later.1, next.2 :: later.2)

end Emulator

/-! ### The set -/

namespace KeySet

def put (keys : Finset Key) (key : Key) (down : Bool) : Finset Key :=
  if down then insert key keys else keys.erase key

def least? (keys : Finset Key) : Option Key :=
  if nonempty : keys.Nonempty then some (keys.min' nonempty) else none

/-- The same actions on a set of keys. A number that names no key leaves the set alone. -/
def handle (keys : Finset Key) : KeyAction → Finset Key × KeyAnswer
  | .press key => (insert key keys, .done)
  | .release key => (keys.erase key, .done)
  | .set key down => (put keys key down, .done)
  | .clear => (∅, .done)
  | .host index down =>
      if within : index < 16 then (put keys ⟨index, within⟩ down, .done) else (keys, .done)
  | .isDown key => (keys, .truth (key ∈ keys))
  | .lowest => (keys, .key (least? keys))
  | .isReleased => (keys, .truth (keys = ∅))

def handleAll (keys : Finset Key) : List KeyAction → Finset Key × List KeyAnswer
  | [] => (keys, [])
  | action :: rest =>
      let next := handle keys action
      let later := handleAll next.1 rest
      (later.1, next.2 :: later.2)

private theorem mem_put {keys : Finset Key} {changed key : Key} {down : Bool} :
    key ∈ put keys changed down ↔ if key = changed then down = true else key ∈ keys := by
  cases down with
  | false =>
      rw [put, if_neg Bool.false_ne_true, Finset.mem_erase]
      split
      · next same => exact iff_of_false (fun kept => kept.1 same) Bool.false_ne_true
      · next other => exact and_iff_right other
  | true =>
      rw [put, if_pos rfl, Finset.mem_insert]
      split
      · next same => exact iff_of_true (.inl same) rfl
      · next other => exact or_iff_right other

private theorem least?_eq_none_iff {keys : Finset Key} : least? keys = none ↔ keys = ∅ := by
  rw [least?]
  split
  · next nonempty => exact iff_of_false (Option.some_ne_none _) nonempty.ne_empty
  · next empty => exact iff_of_true rfl (Finset.not_nonempty_iff_eq_empty.mp empty)

end KeySet

/-! ### The keypad and its set -/

private theorem Key.ofIndex?_val (key : Key) : Key.ofIndex? key.val = some key := dif_pos key.isLt

namespace Keypad

def keys (keypad : Keypad) : Finset Key := Finset.univ.filter fun key => keypad.isDown key = true

theorem mem_keys {keypad : Keypad} {key : Key} : key ∈ keypad.keys ↔ keypad.isDown key = true := by
  simp only [keys, Finset.mem_filter, Finset.mem_univ, true_and]

/-- The flags are told by the set. -/
theorem keys_injective : Function.Injective keys := by
  intro one other same
  apply ext_isDown
  intro key
  apply Bool.eq_iff_iff.mpr
  rw [← mem_keys, ← mem_keys, same]

theorem keys_released : released.keys = ∅ := by
  apply Finset.eq_empty_of_forall_notMem
  intro key member
  exact Bool.false_ne_true ((isDown_released key).symm.trans (mem_keys.mp member))

theorem eq_released_iff {keypad : Keypad} : keypad = released ↔ keypad.keys = ∅ := by
  rw [← keys_released, keys_injective.eq_iff]

theorem keys_set (keypad : Keypad) (key : Key) (down : Bool) :
    (keypad.set key down).keys = KeySet.put keypad.keys key down := by
  ext other
  rw [mem_keys, isDown_set, KeySet.mem_put, mem_keys]
  split <;> rfl

theorem keys_setIndex (keypad : Keypad) (index : Nat) (down : Bool) :
    (keypad.setIndex index down).keys =
      if within : index < 16 then KeySet.put keypad.keys ⟨index, within⟩ down
      else keypad.keys := by
  unfold setIndex Key.ofIndex?
  by_cases within : index < 16
  · rw [dif_pos within, dif_pos within]
    exact keypad.keys_set ⟨index, within⟩ down
  · rw [dif_neg within, dif_neg within]

theorem lowest?_eq_least? (keypad : Keypad) : keypad.lowest? = KeySet.least? keypad.keys := by
  rw [KeySet.least?]
  split
  · next nonempty =>
      apply lowest?_eq_some_iff.mpr
      refine ⟨mem_keys.mp (Finset.min'_mem _ nonempty), ?_⟩
      intro other down
      exact Finset.min'_le _ other (mem_keys.mpr down)
  · next empty =>
      apply lowest?_eq_none_iff.mpr
      intro key
      rw [← Bool.not_eq_true, ← mem_keys, Finset.not_nonempty_iff_eq_empty.mp empty]
      exact Finset.notMem_empty key

private theorem findIdx?_down (keypad : Keypad) :
    keypad.down.toList.findIdx? id = keypad.lowest?.map Fin.val := by
  cases lowest : keypad.lowest? with
  | none =>
      apply List.findIdx?_eq_none_iff.mpr
      intro flag member
      obtain ⟨position, within, same⟩ := List.mem_iff_getElem.mp member
      rw [Vector.length_toList] at within
      rw [← same, Vector.getElem_toList]
      exact lowest?_eq_none_iff.mp lowest ⟨position, within⟩
  | some key =>
      obtain ⟨down, least⟩ := lowest?_eq_some_iff.mp lowest
      have present : key.val < keypad.down.toList.length := by
        rw [Vector.length_toList]
        exact key.isLt
      apply List.findIdx?_eq_some_iff_getElem.mpr
      refine ⟨present, by rw [Vector.getElem_toList]; exact down, ?_⟩
      intro earlier below held
      rw [Vector.getElem_toList] at held
      exact Nat.not_lt_of_le (Fin.le_def.mp (least ⟨earlier, below.trans key.isLt⟩ held)) below

private theorem bind_ofIndex?_findIdx? (keypad : Keypad) :
    (keypad.down.toList.findIdx? id).bind Key.ofIndex? = keypad.lowest? := by
  rw [findIdx?_down]
  cases keypad.lowest? with
  | none => rfl
  | some key => exact key.ofIndex?_val

end Keypad

/-! ### Actions -/

namespace Emulator

private theorem handle_of_asks {action : KeyAction} (asks : action.asks = true)
    (emulator : Emulator) : (emulator.handle action).1 = emulator := by
  cases action with
  | isDown key => rfl
  | lowest => rfl
  | isReleased => rfl
  | _ => cases asks

/-- An action does to the set what it does to the keypad, and is answered the same. -/
theorem keys_handle (emulator : Emulator) (action : KeyAction) :
    KeySet.handle emulator.machine.keypad.keys action =
      ((emulator.handle action).1.machine.keypad.keys, (emulator.handle action).2) := by
  cases action with
  | press key => exact congrArg (·, KeyAnswer.done) (Keypad.keys_set _ key true).symm
  | release key => exact congrArg (·, KeyAnswer.done) (Keypad.keys_set _ key false).symm
  | set key down => exact congrArg (·, KeyAnswer.done) (Keypad.keys_set _ key down).symm
  | clear => exact congrArg (·, KeyAnswer.done) Keypad.keys_released.symm
  | host index down =>
      refine Eq.trans ?_ (congrArg (·, KeyAnswer.done) (Keypad.keys_setIndex _ index down).symm)
      rw [KeySet.handle]
      split <;> rfl
  | isDown key =>
      simp only [KeySet.handle, handle, Keypad.mem_keys, Bool.decide_eq_true]
  | lowest =>
      rw [KeySet.handle, handle, Keypad.lowest?_eq_least?]
  | isReleased =>
      simp only [KeySet.handle, handle, Keypad.eq_released_iff]

private theorem keys_handleAll (emulator : Emulator) (actions : List KeyAction) :
    KeySet.handleAll emulator.machine.keypad.keys actions =
      ((emulator.handleAll actions).1.machine.keypad.keys, (emulator.handleAll actions).2) := by
  induction actions generalizing emulator with
  | nil => rfl
  | cons action rest inductionHypothesis =>
      rw [KeySet.handleAll, handleAll, keys_handle, inductionHypothesis]

private theorem handleAll_filter_asks (emulator : Emulator) (actions : List KeyAction) :
    (emulator.handleAll (actions.filter fun action => !action.asks)).1 =
      (emulator.handleAll actions).1 := by
  induction actions generalizing emulator with
  | nil => rfl
  | cons action rest inductionHypothesis =>
      cases asks : action.asks with
      | false =>
          rw [List.filter_cons_of_pos (by rw [asks]; rfl)]
          exact inductionHypothesis (emulator.handle action).1
      | true =>
          rw [List.filter_cons_of_neg (by rw [asks]; exact Bool.false_ne_true), handleAll,
            handle_of_asks asks]
          exact inductionHypothesis emulator

/-- The keypad is a set of keys with a least element. Whatever is done to it, and whatever the host
sets by number, the keys that are down are those that were put down and not lifted since; a number
that names no key counts for nothing. The lowest of them is found if there is one, and the scan for
the first flag that is set finds the same key. A keypad is as good as new if no key is down. Every
question is answered from the keys that are down when it is asked, and leaves no trace. -/
theorem keypad_is_set_with_least (table : RoutineTable) (entropy : Entropy)
    (verbosity : Verbosity) (actions : List KeyAction) :
    let start := unobserved table entropy verbosity
    let reached := (start.handleAll actions).1
    let keypad := reached.machine.keypad
    let keys := (KeySet.handleAll ∅ actions).1
    (∀ key, keypad.isDown key = true ↔ key ∈ keys) ∧
      (keypad.lowest? =
          if nonempty : keys.Nonempty then some (keys.min' nonempty) else none) ∧
      (keypad.lowest? = none ↔ keys = ∅) ∧
      (keypad.down.toList.findIdx? id).bind Key.ofIndex? = keypad.lowest? ∧
      (keypad = .released ↔ keys = ∅) ∧
      (start.handleAll actions).2 = (KeySet.handleAll ∅ actions).2 ∧
      (start.handleAll (actions.filter fun action => !action.asks)).1 = reached := by
  intro start reached keypad keys
  have run := start.keys_handleAll actions
  have none : start.machine.keypad.keys = ∅ := Keypad.keys_released
  rw [none] at run
  have same : keypad.keys = keys := (congrArg Prod.fst run).symm
  refine ⟨?_, ?_, ?_, keypad.bind_ofIndex?_findIdx?, ?_, (congrArg Prod.snd run).symm,
    start.handleAll_filter_asks actions⟩
  · intro key
    rw [← same, Keypad.mem_keys]
  · rw [← same]
    exact keypad.lowest?_eq_least?
  · rw [← same, keypad.lowest?_eq_least?, KeySet.least?_eq_none_iff]
  · rw [← same]
    exact Keypad.eq_released_iff

-- Asking for the lowest key does not use it up, and there is no key with number sixteen.
example : ((unobserved .empty (.seeded 0) none).handleAll
    [.press 0xC, .press 7, .lowest, .isDown 7, .release 7, .host 16 true, .lowest, .clear,
      .isReleased]).2 =
    [.done, .done, .key (some 7), .truth true, .done, .done, .key (some 0xC), .done,
      .truth true] := by decide

end Emulator

end Chip8
