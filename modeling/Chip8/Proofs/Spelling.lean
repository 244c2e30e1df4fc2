import Chip8.Numeral.Unsigned
import Mathlib.Data.Nat.Digits.Defs
import Mathlib.Data.List.Forall2

/-!
What an unsigned numeral denotes. A numeral is one digit of the radix or more with at most a plus
sign in front, and its value is the positional one. Reading accepts exactly the numerals whose
value fits into 64 bits, and what it says of any other text follows from the text as a whole. A
plus sign, zeros in front and the case of letters make no difference to it.
-/

namespace Chip8.Numeral

def digitCharacters : List Char := "0123456789abcdefghijklmnopqrstuvwxyz".toList

def Weighs (radix : Nat) (digit : Char) (weight : Nat) : Prop :=
  weight < radix ∧ digitCharacters[weight]? = some digit.toLower

/-- The text consists of the characters with at most a plus sign in front of them. -/
def Signed (text : String) (characters : List Char) : Prop :=
  text.toList = characters ∨ text.toList = '+' :: characters

def Denotes (radix : Nat) (text : String) (value : Nat) : Prop :=
  ∃ digits weights, Signed text digits ∧ digits ≠ [] ∧
    List.Forall₂ (Weighs radix) digits weights ∧
    Nat.ofDigits radix weights.reverse = value ∧ value < 2 ^ 64

/-- The value leaves 64 bits before anything that is not a digit is met. -/
def Overflows (radix : Nat) (text : String) : Prop :=
  ∃ digits rest weights, Signed text (digits ++ rest) ∧
    List.Forall₂ (Weighs radix) digits weights ∧
    2 ^ 64 ≤ Nat.ofDigits radix weights.reverse

def Misspells (radix : Nat) (text : String) : UnsignedFault → Prop
  | .empty => text = ""
  | .tooLarge => Overflows radix text
  | .invalidDigit => text ≠ "" ∧ ¬ Overflows radix text ∧ ∀ value, ¬ Denotes radix text value

/-! ### Digits -/

private theorem toNat_digitCharacters :
    ∀ weight : Fin 36,
      digitCharacters[weight].toNat =
        if weight.val < 10 then '0'.toNat + weight.val else 'a'.toNat + (weight.val - 10) := by
  decide

private theorem getElem?_digitCharacters_eq_some_iff {weight : Nat} {digit : Char} :
    digitCharacters[weight]? = some digit ↔
      weight < 36 ∧
        digit.toNat =
          if weight < 10 then '0'.toNat + weight else 'a'.toNat + (weight - 10) := by
  constructor
  · intro found
    obtain ⟨within, rfl⟩ := List.getElem?_eq_some_iff.mp found
    exact ⟨within, toNat_digitCharacters ⟨weight, within⟩⟩
  · rintro ⟨within, place⟩
    have found : digitCharacters[weight]? = some digitCharacters[weight] :=
      List.getElem?_eq_getElem within
    rw [found, Option.some.injEq, ← Char.toNat_inj, place]
    exact toNat_digitCharacters ⟨weight, within⟩

private theorem isUpper_iff_toNat {character : Char} :
    character.isUpper = true ↔ 'A'.toNat ≤ character.toNat ∧ character.toNat ≤ 'Z'.toNat :=
  decide_eq_true_iff

private theorem isLower_iff_toNat {character : Char} :
    character.isLower = true ↔ 'a'.toNat ≤ character.toNat ∧ character.toNat ≤ 'z'.toNat :=
  Bool.and_eq_true_iff.trans (and_congr decide_eq_true_iff decide_eq_true_iff)

theorem toNat_toLower (character : Char) :
    character.toLower.toNat =
      if 'A'.toNat ≤ character.toNat ∧ character.toNat ≤ 'Z'.toNat then character.toNat + 32
      else character.toNat := by
  by_cases upper : 'A'.toNat ≤ character.toNat ∧ character.toNat ≤ 'Z'.toNat
  · have lowered : character.toLower.val = character.val + ('a'.val - 'A'.val) :=
      congrArg Char.val (dif_pos upper)
    have within : character.toNat + 32 < 2 ^ 32 :=
      Nat.lt_of_le_of_lt (Nat.add_le_add_right upper.2 32) (by decide)
    rw [if_pos upper]
    refine (congrArg UInt32.toNat lowered).trans ?_
    exact (UInt32.toNat_add _ _).trans (Nat.mod_eq_of_lt within)
  · have kept : character.toLower = character := dif_neg upper
    rw [if_neg upper, kept]

private theorem toLower_toLower (character : Char) :
    character.toLower.toLower = character.toLower := by
  have upperA : 'A'.toNat = 65 := rfl
  have upperZ : 'Z'.toNat = 90 := rfl
  rw [← Char.toNat_inj, toNat_toLower, toNat_toLower]
  split_ifs <;> omega

theorem digitValue?_eq_some_iff {radix weight : Nat} {digit : Char} :
    digitValue? radix digit = some weight ↔ Weighs radix digit weight := by
  have zero : '0'.toNat = 48 := rfl
  have nine : '9'.toNat = 57 := rfl
  have upperA : 'A'.toNat = 65 := rfl
  have upperZ : 'Z'.toNat = 90 := rfl
  have lowerA : 'a'.toNat = 97 := rfl
  have lowerZ : 'z'.toNat = 122 := rfl
  rw [Weighs, getElem?_digitCharacters_eq_some_iff, toNat_toLower, digitValue?]
  simp only [Option.filter_eq_some_iff, decide_eq_true_eq, Char.isDigit_iff_toNat,
    isLower_iff_toNat, isUpper_iff_toNat]
  split_ifs <;> simp only [Option.some.injEq, false_and, false_iff] <;> omega

theorem Weighs.unique {radix one other : Nat} {digit : Char} (first : Weighs radix digit one)
    (second : Weighs radix digit other) : one = other :=
  Option.some.inj
    ((digitValue?_eq_some_iff.mpr first).symm.trans (digitValue?_eq_some_iff.mpr second))

theorem not_weighs_plus (radix weight : Nat) : ¬ Weighs radix '+' weight := by
  intro weighs
  have read := digitValue?_eq_some_iff.mpr weighs
  contradiction

/-! ### Values -/

def extend (radix start : Nat) (weights : List Nat) : Nat :=
  start * radix ^ weights.length + Nat.ofDigits radix weights.reverse

theorem extend_nil (radix start : Nat) : extend radix start [] = start := by
  rw [extend, List.length_nil, Nat.pow_zero, Nat.mul_one]
  rfl

theorem extend_cons (radix start weight : Nat) (weights : List Nat) :
    extend radix start (weight :: weights) = extend radix (start * radix + weight) weights := by
  rw [extend, extend, List.reverse_cons, Nat.ofDigits_append, Nat.ofDigits_singleton,
    List.length_cons, List.length_reverse]
  ring

theorem extend_zero (radix : Nat) (weights : List Nat) :
    extend radix 0 weights = Nat.ofDigits radix weights.reverse := by
  rw [extend, Nat.zero_mul, Nat.zero_add]

private theorem le_extend {radix : Nat} (positive : 0 < radix) (start : Nat) (weights : List Nat) :
    start ≤ extend radix start weights :=
  (Nat.le_mul_of_pos_right start (Nat.pow_pos positive)).trans (Nat.le_add_right _ _)

/-! ### Reading from the left -/

private theorem unsignedFrom_cons_of_not_weighs {radix : Nat} {digit : Char}
    (foreign : ∀ weight, ¬ Weighs radix digit weight) (start : Nat) (rest : List Char) :
    unsignedFrom radix start (digit :: rest) = .error .invalidDigit := by
  have unread : digitValue? radix digit = none := by
    apply Option.eq_none_iff_forall_ne_some.mpr
    intro weight read
    exact foreign weight (digitValue?_eq_some_iff.mp read)
  rw [unsignedFrom, unread]

private theorem unsignedFrom_cons_of_weighs {radix weight : Nat} {digit : Char}
    (weighs : Weighs radix digit weight) (start : Nat) (rest : List Char) :
    unsignedFrom radix start (digit :: rest) =
      if start * radix + weight < unsignedBound then
        unsignedFrom radix (start * radix + weight) rest
      else .error .tooLarge := by
  rw [unsignedFrom, digitValue?_eq_some_iff.mpr weighs]

private theorem exists_weights_cons {radix weight : Nat} {digit : Char}
    (weighs : Weighs radix digit weight)
    (rest : List Char) (good : List Nat → Prop) :
    (∃ weights, List.Forall₂ (Weighs radix) (digit :: rest) weights ∧ good weights) ↔
      ∃ weights, List.Forall₂ (Weighs radix) rest weights ∧ good (weight :: weights) := by
  constructor
  · rintro ⟨_, all, holds⟩
    obtain ⟨first, others, one, more, rfl⟩ := List.forall₂_cons_left_iff.mp all
    rw [one.unique weighs] at holds
    exact ⟨others, more, holds⟩
  · rintro ⟨others, more, holds⟩
    exact ⟨weight :: others, .cons weighs more, holds⟩

/-- Digits read from the left are accepted when their value as a whole fits, since no part of them
from the left is worth more. -/
theorem unsignedFrom_eq_ok_iff {radix start value : Nat} {digits : List Char}
    (small : start < unsignedBound) :
    unsignedFrom radix start digits = .ok value ↔
      ∃ weights, List.Forall₂ (Weighs radix) digits weights ∧
        extend radix start weights = value ∧ value < unsignedBound := by
  induction digits generalizing start with
  | nil =>
      simp only [unsignedFrom, Except.ok.injEq, List.forall₂_nil_left_iff, exists_eq_left,
        extend_nil]
      exact ⟨fun same => ⟨same, same ▸ small⟩, And.left⟩
  | cons digit rest inductionHypothesis =>
      by_cases known : ∃ weight, Weighs radix digit weight
      · obtain ⟨weight, weighs⟩ := known
        rw [unsignedFrom_cons_of_weighs weighs, exists_weights_cons weighs]
        simp only [extend_cons]
        split
        next fits => exact inductionHypothesis fits
        next large =>
          have positive : 0 < radix := Nat.zero_lt_of_lt weighs.1
          constructor
          · intro impossible
            contradiction
          · rintro ⟨weights, _, rfl, within⟩
            exact absurd ((le_extend positive _ weights).trans_lt within) large
      · rw [unsignedFrom_cons_of_not_weighs (not_exists.mp known)]
        constructor
        · intro impossible
          contradiction
        · rintro ⟨weights, all, _⟩
          obtain ⟨weight, _, weighs, _⟩ := List.forall₂_cons_left_iff.mp all
          exact absurd ⟨weight, weighs⟩ known

private def OverflowsFrom (radix start : Nat) (characters : List Char) : Prop :=
  ∃ digits rest weights, characters = digits ++ rest ∧
    List.Forall₂ (Weighs radix) digits weights ∧ unsignedBound ≤ extend radix start weights

private theorem OverflowsFrom.of_large {radix start : Nat} (large : ¬ start < unsignedBound)
    (characters : List Char) : OverflowsFrom radix start characters := by
  refine ⟨[], characters, [], rfl, .nil, ?_⟩
  rw [extend_nil]
  exact Nat.le_of_not_lt large

private theorem OverflowsFrom.exists_cons {radix start : Nat} {characters : List Char}
    (small : start < unsignedBound) (overflows : OverflowsFrom radix start characters) :
    ∃ digit rest weight, characters = digit :: rest ∧ Weighs radix digit weight ∧
      OverflowsFrom radix (start * radix + weight) rest := by
  obtain ⟨digits, rest, weights, rfl, all, beyond⟩ := overflows
  cases all with
  | nil =>
      rw [extend_nil] at beyond
      exact absurd small (Nat.not_lt_of_le beyond)
  | cons weighs others =>
      rw [extend_cons] at beyond
      exact ⟨_, _, _, rfl, weighs, _, _, _, rfl, others, beyond⟩

private theorem OverflowsFrom.cons {radix start weight : Nat} {digit : Char} {rest : List Char}
    (weighs : Weighs radix digit weight)
    (overflows : OverflowsFrom radix (start * radix + weight) rest) :
    OverflowsFrom radix start (digit :: rest) := by
  obtain ⟨digits, others, weights, rfl, all, beyond⟩ := overflows
  rw [← extend_cons] at beyond
  exact ⟨digit :: digits, others, weight :: weights, rfl, .cons weighs all, beyond⟩

theorem unsignedFrom_eq_tooLarge_iff {radix start : Nat} {characters : List Char}
    (small : start < unsignedBound) :
    unsignedFrom radix start characters = .error .tooLarge ↔
      OverflowsFrom radix start characters := by
  induction characters generalizing start with
  | nil =>
      constructor
      · intro impossible
        contradiction
      · intro overflows
        obtain ⟨_, _, _, impossible, _⟩ := overflows.exists_cons small
        contradiction
  | cons digit rest inductionHypothesis =>
      by_cases known : ∃ weight, Weighs radix digit weight
      · obtain ⟨weight, weighs⟩ := known
        rw [unsignedFrom_cons_of_weighs weighs]
        have step :
            OverflowsFrom radix start (digit :: rest) ↔
              OverflowsFrom radix (start * radix + weight) rest := by
          refine ⟨fun overflows => ?_, .cons weighs⟩
          obtain ⟨_, _, _, whole, first, more⟩ := overflows.exists_cons small
          obtain ⟨rfl, rfl⟩ := List.cons.inj whole
          rw [weighs.unique first]
          exact more
        rw [step]
        split
        next fits => exact inductionHypothesis fits
        next large => exact iff_of_true rfl (.of_large large rest)
      · rw [unsignedFrom_cons_of_not_weighs (not_exists.mp known)]
        constructor
        · intro impossible
          contradiction
        · intro overflows
          obtain ⟨_, _, weight, whole, first, _⟩ := overflows.exists_cons small
          obtain ⟨rfl, rfl⟩ := List.cons.inj whole
          exact absurd ⟨weight, first⟩ known

private theorem unsignedFrom_ne_empty (radix start : Nat) (characters : List Char) :
    unsignedFrom radix start characters ≠ .error .empty := by
  induction characters generalizing start with
  | nil =>
      intro impossible
      contradiction
  | cons digit rest inductionHypothesis =>
      by_cases known : ∃ weight, Weighs radix digit weight
      · obtain ⟨weight, weighs⟩ := known
        rw [unsignedFrom_cons_of_weighs weighs]
        split
        next fits => exact inductionHypothesis _
        next large =>
          intro impossible
          contradiction
      · rw [unsignedFrom_cons_of_not_weighs (not_exists.mp known)]
        intro impossible
        contradiction

/-! ### The sign -/

section Sign

variable {radix : Nat} {text : String} {first : Char} {rest : List Char}

private theorem unsigned_of_plus (whole : text.toList = '+' :: first :: rest) :
    unsigned radix text = unsignedFrom radix 0 (first :: rest) := by
  rw [unsigned, whole]
  rfl

private theorem unsigned_of_no_plus (whole : text.toList = first :: rest) (plain : first ≠ '+') :
    unsigned radix text = unsignedFrom radix 0 (first :: rest) := by
  rw [unsigned, whole]
  split
  next absent => contradiction
  next alone => exact absurd (List.cons.inj alone).1 plain
  next signed => exact absurd (List.cons.inj signed).1 plain
  next => rfl

private theorem unsigned_of_plus_alone (whole : text.toList = ['+']) :
    unsigned radix text = unsignedFrom radix 0 ['+'] := by
  rw [unsignedFrom_cons_of_not_weighs (not_weighs_plus radix), unsigned, whole]
  rfl

end Sign

private theorem unsigned_of_signed {radix : Nat} {text : String} {characters : List Char}
    (signed : Signed text characters) (more : characters ≠ [])
    (plain : characters.head? ≠ some '+') :
    unsigned radix text = unsignedFrom radix 0 characters := by
  obtain ⟨first, rest, rfl⟩ := List.exists_cons_of_ne_nil more
  cases signed with
  | inl whole => exact unsigned_of_no_plus whole fun same => plain (congrArg some same)
  | inr whole => exact unsigned_of_plus whole

theorem exists_signed (radix : Nat) {text : String} (written : text ≠ "") :
    ∃ characters, Signed text characters ∧ characters ≠ [] ∧
      unsigned radix text = unsignedFrom radix 0 characters := by
  cases whole : text.toList with
  | nil => exact absurd (String.toList_eq_nil_iff.mp whole) written
  | cons first rest =>
      by_cases plain : first = '+'
      · rw [plain] at whole
        cases rest with
        | nil =>
            exact ⟨['+'], .inl whole, List.cons_ne_nil _ _, unsigned_of_plus_alone whole⟩
        | cons second others =>
            exact ⟨second :: others, .inr whole, List.cons_ne_nil _ _, unsigned_of_plus whole⟩
      · exact ⟨first :: rest, .inl whole, List.cons_ne_nil _ _, unsigned_of_no_plus whole plain⟩

theorem head?_ne_plus_of_weighs {radix : Nat} {digits : List Char} {weights : List Nat}
    (all : List.Forall₂ (Weighs radix) digits weights) (more : digits ≠ []) (rest : List Char) :
    (digits ++ rest).head? ≠ some '+' := by
  cases all with
  | nil => contradiction
  | cons weighs _ =>
      rintro ⟨⟩
      exact not_weighs_plus radix _ weighs

private theorem unsigned_empty (radix : Nat) : unsigned radix "" = .error .empty := rfl

/-- Exactly the numerals that fit are accepted, and each with its value. -/
theorem unsigned_eq_ok_iff {radix value : Nat} {text : String} :
    unsigned radix text = .ok value ↔ Denotes radix text value := by
  have start : 0 < unsignedBound := by decide
  constructor
  · intro read
    have written : text ≠ "" := by
      rintro rfl
      contradiction
    obtain ⟨characters, signed, more, same⟩ := exists_signed radix written
    obtain ⟨weights, all, worth, within⟩ := (unsignedFrom_eq_ok_iff start).mp (same.symm.trans read)
    rw [extend_zero] at worth
    exact ⟨characters, weights, signed, more, all, worth, within⟩
  · rintro ⟨digits, weights, signed, more, all, worth, within⟩
    have plain := head?_ne_plus_of_weighs all more []
    rw [List.append_nil] at plain
    rw [unsigned_of_signed signed more plain, unsignedFrom_eq_ok_iff start]
    rw [← extend_zero] at worth
    exact ⟨weights, all, worth, within⟩

theorem unsigned_eq_empty_iff {radix : Nat} {text : String} :
    unsigned radix text = .error .empty ↔ text = "" := by
  constructor
  · intro nothing
    by_contra written
    obtain ⟨characters, _, _, same⟩ := exists_signed radix written
    exact unsignedFrom_ne_empty radix 0 characters (same.symm.trans nothing)
  · rintro rfl
    exact unsigned_empty radix

theorem unsigned_eq_tooLarge_iff {radix : Nat} {text : String} :
    unsigned radix text = .error .tooLarge ↔ Overflows radix text := by
  have start : 0 < unsignedBound := by decide
  constructor
  · intro large
    have written : text ≠ "" := by
      rintro rfl
      have nothing := Except.error.inj ((unsigned_empty radix).symm.trans large)
      contradiction
    obtain ⟨characters, signed, _, same⟩ := exists_signed radix written
    obtain ⟨digits, rest, weights, rfl, all, beyond⟩ :=
      (unsignedFrom_eq_tooLarge_iff start).mp (same.symm.trans large)
    rw [extend_zero] at beyond
    exact ⟨digits, rest, weights, signed, all, beyond⟩
  · rintro ⟨digits, rest, weights, signed, all, beyond⟩
    have more : digits ≠ [] := by
      rintro rfl
      rw [List.forall₂_nil_left_iff.mp all] at beyond
      contradiction
    have plain := head?_ne_plus_of_weighs all more rest
    have longer : digits ++ rest ≠ [] := List.append_ne_nil_of_left_ne_nil more rest
    rw [unsigned_of_signed signed longer plain, unsignedFrom_eq_tooLarge_iff start]
    rw [← extend_zero] at beyond
    exact ⟨digits, rest, weights, rfl, all, beyond⟩

theorem unsigned_eq_error_iff {radix : Nat} {text : String} {fault : UnsignedFault} :
    unsigned radix text = .error fault ↔ Misspells radix text fault := by
  cases fault with
  | empty => exact unsigned_eq_empty_iff
  | tooLarge => exact unsigned_eq_tooLarge_iff
  | invalidDigit =>
      rw [Misspells, ← unsigned_eq_tooLarge_iff, ne_eq, ← @unsigned_eq_empty_iff radix]
      simp only [← unsigned_eq_ok_iff]
      cases unsigned radix text with
      | ok value => simp
      | error fault => cases fault <;> simp

theorem denotes_or_misspells (radix : Nat) (text : String) :
    (∃ value, Denotes radix text value) ∨ ∃ fault, Misspells radix text fault := by
  cases read : unsigned radix text with
  | ok value => exact .inl ⟨value, unsigned_eq_ok_iff.mp read⟩
  | error fault => exact .inr ⟨fault, unsigned_eq_error_iff.mp read⟩

/-! ### Spellings of one numeral -/

/-- The text writes these lower-case digits, with zeros in front, capitals and a plus sign where
it likes. -/
def Spells (digits : List Char) (text : String) : Prop :=
  ∃ zeros characters, Signed text (List.replicate zeros '0' ++ characters) ∧
    characters.map Char.toLower = digits

/-- The texts differ at most by a plus sign, zeros in front and the case of letters. -/
def Alike (text other : String) : Prop :=
  ∃ digits, digits ≠ [] ∧ digits.head? ≠ some '+' ∧ Spells digits text ∧ Spells digits other

private theorem weighs_toLower {radix weight : Nat} {digit : Char} :
    Weighs radix digit.toLower weight ↔ Weighs radix digit weight := by
  rw [Weighs, Weighs, toLower_toLower]

private theorem digitValue?_toLower (radix : Nat) (digit : Char) :
    digitValue? radix digit.toLower = digitValue? radix digit := by
  apply Option.ext
  intro weight
  rw [digitValue?_eq_some_iff, digitValue?_eq_some_iff, weighs_toLower]

private theorem unsignedFrom_map_toLower (radix start : Nat) (digits : List Char) :
    unsignedFrom radix start (digits.map Char.toLower) = unsignedFrom radix start digits := by
  induction digits generalizing start with
  | nil => rfl
  | cons digit rest inductionHypothesis =>
      rw [List.map_cons, unsignedFrom, unsignedFrom, digitValue?_toLower]
      simp only [inductionHypothesis]

private theorem unsignedFrom_zeros {radix : Nat} (positive : 0 < radix) (zeros : Nat)
    (digits : List Char) :
    unsignedFrom radix 0 (List.replicate zeros '0' ++ digits) = unsignedFrom radix 0 digits := by
  induction zeros with
  | zero => rfl
  | succ zeros inductionHypothesis =>
      have weighs : Weighs radix '0' 0 := ⟨positive, rfl⟩
      rw [List.replicate_succ, List.cons_append, unsignedFrom_cons_of_weighs weighs,
        Nat.zero_mul, Nat.zero_add, if_pos (by decide), inductionHypothesis]

/-- Every spelling of the digits is read as the digits are. -/
theorem Spells.unsigned_eq {radix : Nat} (positive : 0 < radix) {digits : List Char}
    (more : digits ≠ []) (plain : digits.head? ≠ some '+') {text : String}
    (spells : Spells digits text) :
    unsigned radix text = unsignedFrom radix 0 digits := by
  obtain ⟨zeros, characters, signed, rfl⟩ := spells
  rw [unsignedFrom_map_toLower, ← unsignedFrom_zeros positive zeros]
  apply unsigned_of_signed signed
  · intro nothing
    apply more
    rw [(List.append_eq_nil_iff.mp nothing).2, List.map_nil]
  · intro sign
    cases zeros with
    | zero =>
        apply plain
        rw [List.replicate_zero, List.nil_append] at sign
        rw [List.head?_map, sign]
        rfl
    | succ zeros =>
        have same : '0' = '+' := Option.some.inj sign
        contradiction

theorem Alike.unsigned_eq {radix : Nat} (positive : 0 < radix) {text other : String}
    (alike : Alike text other) : unsigned radix text = unsigned radix other := by
  obtain ⟨digits, more, plain, one, another⟩ := alike
  rw [one.unsigned_eq positive more plain, another.unsigned_eq positive more plain]

example : unsigned 16 "+00fF" = .ok 255 ∧ unsigned 16 "FF" = .ok 255 := ⟨rfl, rfl⟩

theorem Alike.denotes_iff {radix : Nat} (positive : 0 < radix) {text other : String}
    (alike : Alike text other) (value : Nat) :
    Denotes radix text value ↔ Denotes radix other value := by
  rw [← unsigned_eq_ok_iff, ← unsigned_eq_ok_iff, alike.unsigned_eq positive]

end Chip8.Numeral
