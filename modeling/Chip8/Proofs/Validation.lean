import Chip8.Proofs.Spelling
import Chip8.Runner.Report

/-!
How the settings of a run are checked. They are accepted exactly when each of them denotes a
number and each key one of the sixteen. Otherwise the first that offends, in the order of cycles,
frames and keys from the left, is the one reported, whatever stands behind it. All of this happens
before the program file is looked at.
-/

namespace Chip8.Runner

inductive Item
  | cycles (text : String)
  | frames (text : String)
  | key (text : String)

namespace Item

def Valid : Item → Prop
  | .cycles text => ∃ value, Numeral.Denotes 10 text value
  | .frames text => ∃ value, Numeral.Denotes 10 text value
  | .key text => ∃ value ≤ 15, Numeral.Denotes 16 text value

/-- What an item that is not valid is answered with: a complaint, and its cause if it has one. -/
inductive Offends : Item → List String → Prop
  | cycles {text : String} {fault : Numeral.UnsignedFault}
      (misspells : Numeral.Misspells 10 text fault) :
      Offends (.cycles text) ["invalid cycles argument", fault.message]
  | frames {text : String} {fault : Numeral.UnsignedFault}
      (misspells : Numeral.Misspells 10 text fault) :
      Offends (.frames text) ["invalid frames argument", fault.message]
  | key {text : String} {fault : Numeral.UnsignedFault}
      (misspells : Numeral.Misspells 16 text fault) :
      Offends (.key text) ["invalid key '" ++ text ++ "'", fault.message]
  | keyOutOfRange {text : String} {value : Nat} (denotes : Numeral.Denotes 16 text value)
      (beyond : 15 < value) :
      Offends (.key text) ["key '" ++ text ++ "' is out of range"]

end Item

def Request.items (request : Request) : List Item :=
  (request.cycles.map Item.cycles).toList ++ (request.frames.map Item.frames).toList ++
    request.keys.map Item.key

/-- A count is what its text denotes, or the default where there is no text. -/
def Counts (default : Nat) : Option String → Nat → Prop
  | none, value => value = default
  | some text, value => Numeral.Denotes 10 text value

/-- The same settings, with their numbers spelt in other ways. -/
structure Request.Respells (request other : Request) : Prop where
  cycles : Option.Rel Numeral.Alike request.cycles other.cycles
  frames : Option.Rel Numeral.Alike request.frames other.frames
  keys : List.Forall₂ Numeral.Alike request.keys other.keys
  dump : request.dump = other.dump

/-- The report that a plan leads to, where opening a file gives what `opening` says. -/
def Plan.report? (plan : Plan) (entropy : Entropy) (opening : String → Opening) : Option Report :=
  match plan with
  | .usageError => none
  | .answer report => some report
  | .run settings verbosity file =>
      some (Runner.run settings verbosity file entropy (opening file))

/-! ### What is accepted -/

namespace Settings

theorem readCount_eq_ok_iff {default value : Nat} {text : Option String} :
    readCount default text = .ok value ↔ Counts default text value := by
  cases text with
  | none =>
      rw [readCount, Counts, Except.ok.injEq]
      exact eq_comm
  | some text => exact Numeral.unsigned_eq_ok_iff

theorem readKey_of_denotes {text : String} {value : Nat} (denotes : Numeral.Denotes 16 text value) :
    readKey text =
      if within : value < 16 then .ok ⟨value, within⟩ else .error (.keyOutOfRange text) := by
  have read := Numeral.unsigned_eq_ok_iff.mpr denotes
  by_cases within : value < 16
  · simp only [readKey, read, Key.ofIndex?, dif_pos within]
  · simp only [readKey, read, Key.ofIndex?, dif_neg within]

theorem readKey_of_misspells {text : String} {fault : Numeral.UnsignedFault}
    (misspells : Numeral.Misspells 16 text fault) : readKey text = .error (.key text fault) := by
  rw [readKey, Numeral.unsigned_eq_error_iff.mpr misspells]

theorem readKey_eq_ok_iff {text : String} {key : Key} :
    readKey text = .ok key ↔ Numeral.Denotes 16 text key.val := by
  constructor
  · intro accepted
    cases Numeral.denotes_or_misspells 16 text with
    | inl denotes =>
        obtain ⟨value, denotes⟩ := denotes
        rw [readKey_of_denotes denotes] at accepted
        split at accepted
        next within =>
          cases accepted
          exact denotes
        next beyond => contradiction
    | inr misspells =>
        obtain ⟨fault, misspells⟩ := misspells
        rw [readKey_of_misspells misspells] at accepted
        contradiction
  · intro denotes
    rw [readKey_of_denotes denotes, dif_pos key.isLt]

theorem readKeys_eq_ok_iff {texts : List String} {keys : List Key} :
    readKeys texts = .ok keys ↔
      List.Forall₂ (fun text key => Numeral.Denotes 16 text key.val) texts keys := by
  simp only [← readKey_eq_ok_iff]
  induction texts generalizing keys with
  | nil =>
      rw [readKeys, Except.ok.injEq, List.forall₂_nil_left_iff]
      exact eq_comm
  | cons text rest inductionHypothesis =>
      rw [readKeys, List.forall₂_cons_left_iff]
      simp only [← inductionHypothesis]
      cases readKey text with
      | error fault => simp only [reduceCtorEq, false_and, exists_false]
      | ok first =>
          cases readKeys rest with
          | error fault => simp only [reduceCtorEq, false_and, and_false, exists_false]
          | ok others =>
              simp only [Except.ok.injEq, exists_and_left, exists_eq_left']
              exact eq_comm

theorem ofTexts_eq_ok_iff {cycles frames : Option String} {keyTexts : List String}
    {dump : Bool} {settings : Settings} :
    ofTexts cycles frames keyTexts dump = .ok settings ↔
      readCount defaultCycles cycles = .ok settings.cycles ∧
        readCount defaultFrames frames = .ok settings.frames ∧
        readKeys keyTexts = .ok settings.keys ∧ dump = settings.dump := by
  obtain ⟨cyclesGiven, framesGiven, keysGiven, dumpGiven⟩ := settings
  rw [ofTexts]
  cases readCount defaultCycles cycles with
  | error fault => simp only [reduceCtorEq, false_and]
  | ok cycles =>
      cases readCount defaultFrames frames with
      | error fault => simp only [reduceCtorEq, false_and, and_false]
      | ok frames =>
          cases readKeys keyTexts with
          | error fault => simp only [reduceCtorEq, false_and, and_false]
          | ok keys => simp only [Except.ok.injEq, Settings.mk.injEq]

end Settings

private theorem counts_iff_of_alike {default value : Nat} {text other : Option String}
    (alike : Option.Rel Numeral.Alike text other) :
    Counts default other value ↔ Counts default text value := by
  cases alike with
  | none => rfl
  | some alike => exact (alike.denotes_iff (by decide) value).symm

private theorem denoted_iff_of_alike {texts others : List String} {keys : List Key}
    (alike : List.Forall₂ Numeral.Alike texts others) :
    List.Forall₂ (fun text key => Numeral.Denotes 16 text key.val) others keys ↔
      List.Forall₂ (fun text key => Numeral.Denotes 16 text key.val) texts keys := by
  induction alike generalizing keys with
  | nil => rfl
  | cons same _ inductionHypothesis =>
      have hexadecimal : 0 < 16 := by decide
      simp only [List.forall₂_cons_left_iff, inductionHypothesis, same.denotes_iff hexadecimal]

/-! ### What is refused -/

def refusal? {Fault Value : Type} : Except Fault Value → Option Fault
  | .ok _ => none
  | .error fault => some fault

private theorem refusal?_eq_none_iff {Fault Value : Type} {result : Except Fault Value} :
    refusal? result = none ↔ ∃ value, result = .ok value := by
  cases result <;> simp [refusal?]

private theorem refusal?_eq_some_iff {Fault Value : Type} {result : Except Fault Value}
    {fault : Fault} :
    refusal? result = some fault ↔ result = .error fault := by
  cases result <;> simp [refusal?]

private theorem mapError_eq_error_iff {Fault Told Value : Type} {result : Except Fault Value}
    {tell : Fault → Told} {told : Told} :
    result.mapError tell = .error told ↔ (refusal? result).map tell = some told := by
  cases result <;> simp [refusal?, Except.mapError]

def Item.refusal? : Item → Option SettingFault
  | .cycles text => (Runner.refusal? (Numeral.unsigned 10 text)).map .cycles
  | .frames text => (Runner.refusal? (Numeral.unsigned 10 text)).map .frames
  | .key text => Runner.refusal? (Settings.readKey text)

private theorem refusal?_readKeys (texts : List String) :
    refusal? (Settings.readKeys texts) = (texts.map Item.key).findSome? Item.refusal? := by
  induction texts with
  | nil => rfl
  | cons text rest inductionHypothesis =>
      rw [List.map_cons, List.findSome?_cons, ← inductionHypothesis, Settings.readKeys,
        Item.refusal?]
      cases Settings.readKey text with
      | error fault => rfl
      | ok first => cases Settings.readKeys rest <;> rfl

private theorem refusal?_readCount (wrap : String → Item)
    (blame : Numeral.UnsignedFault → SettingFault)
    (unread : ∀ text, (wrap text).refusal? = (refusal? (Numeral.unsigned 10 text)).map blame)
    (default : Nat) (text : Option String) :
    (refusal? (Settings.readCount default text)).map blame =
      (text.map wrap).toList.findSome? Item.refusal? := by
  cases text with
  | none => rfl
  | some text =>
      rw [Option.map_some, Option.toList_some, List.findSome?_singleton, unread,
        Settings.readCount]

theorem Request.refusal?_settings (request : Request) :
    refusal? request.settings = request.items.findSome? Item.refusal? := by
  rw [items, List.findSome?_append, List.findSome?_append, ← refusal?_readKeys,
    ← refusal?_readCount Item.cycles SettingFault.cycles (fun _ => rfl) Settings.defaultCycles,
    ← refusal?_readCount Item.frames SettingFault.frames (fun _ => rfl) Settings.defaultFrames,
    settings, Settings.ofTexts]
  cases Settings.readCount Settings.defaultCycles request.cycles with
  | error fault => rfl
  | ok cycles =>
      cases Settings.readCount Settings.defaultFrames request.frames with
      | error fault => rfl
      | ok frames => cases Settings.readKeys request.keys <;> rfl

theorem Item.refusal?_eq_none_iff {item : Item} : item.refusal? = none ↔ item.Valid := by
  cases item with
  | cycles text =>
      rw [refusal?, Option.map_eq_none_iff, Runner.refusal?_eq_none_iff, Valid]
      simp only [Numeral.unsigned_eq_ok_iff]
  | frames text =>
      rw [refusal?, Option.map_eq_none_iff, Runner.refusal?_eq_none_iff, Valid]
      simp only [Numeral.unsigned_eq_ok_iff]
  | key text =>
      rw [refusal?, Runner.refusal?_eq_none_iff, Valid]
      simp only [Settings.readKey_eq_ok_iff]
      constructor
      · rintro ⟨key, denotes⟩
        exact ⟨key.val, Nat.le_of_lt_succ key.isLt, denotes⟩
      · rintro ⟨value, within, denotes⟩
        exact ⟨⟨value, Nat.lt_succ_of_le within⟩, denotes⟩

private theorem Item.Offends.of_refusal? {item : Item} {fault : SettingFault}
    (refused : item.refusal? = some fault) : item.Offends fault.texts := by
  cases item with
  | cycles text =>
      obtain ⟨fault, misread, rfl⟩ := Option.map_eq_some_iff.mp refused
      exact .cycles (Numeral.unsigned_eq_error_iff.mp (refusal?_eq_some_iff.mp misread))
  | frames text =>
      obtain ⟨fault, misread, rfl⟩ := Option.map_eq_some_iff.mp refused
      exact .frames (Numeral.unsigned_eq_error_iff.mp (refusal?_eq_some_iff.mp misread))
  | key text =>
      have misread := refusal?_eq_some_iff.mp refused
      cases Numeral.denotes_or_misspells 16 text with
      | inl denotes =>
          obtain ⟨value, denotes⟩ := denotes
          rw [Settings.readKey_of_denotes denotes] at misread
          split at misread
          next within => contradiction
          next beyond =>
            cases misread
            exact .keyOutOfRange denotes (Nat.lt_of_not_le fun le => beyond (Nat.lt_succ_of_le le))
      | inr misspells =>
          obtain ⟨fault, misspells⟩ := misspells
          rw [Settings.readKey_of_misspells misspells] at misread
          cases misread
          exact .key misspells

private theorem Item.Offends.exists_refusal? {item : Item} {texts : List String}
    (offends : item.Offends texts) :
    ∃ fault, item.refusal? = some fault ∧ fault.texts = texts := by
  cases offends with
  | @cycles text fault misspells =>
      have misread := Numeral.unsigned_eq_error_iff.mpr misspells
      exact ⟨.cycles fault, by rw [refusal?, misread]; rfl, rfl⟩
  | @frames text fault misspells =>
      have misread := Numeral.unsigned_eq_error_iff.mpr misspells
      exact ⟨.frames fault, by rw [refusal?, misread]; rfl, rfl⟩
  | @key text fault misspells =>
      exact ⟨.key text fault, by rw [refusal?, Settings.readKey_of_misspells misspells]; rfl, rfl⟩
  | @keyOutOfRange text value denotes beyond =>
      have outside : ¬ value < 16 := by omega
      refine ⟨.keyOutOfRange text, ?_, rfl⟩
      rw [refusal?, Settings.readKey_of_denotes denotes, dif_neg outside]
      rfl

theorem Item.offends_iff {item : Item} {texts : List String} :
    item.Offends texts ↔ item.refusal?.map SettingFault.texts = some texts := by
  rw [Option.map_eq_some_iff]
  refine ⟨Item.Offends.exists_refusal?, ?_⟩
  rintro ⟨fault, refused, rfl⟩
  exact .of_refusal? refused

namespace Request

theorem settings_eq_ok_iff {request : Request} {settings : Settings} :
    request.settings = .ok settings ↔
      Counts 10 request.cycles settings.cycles ∧ Counts 60 request.frames settings.frames ∧
        List.Forall₂ (fun text key => Numeral.Denotes 16 text key.val)
          request.keys settings.keys ∧
        request.dump = settings.dump := by
  rw [Request.settings, Settings.ofTexts_eq_ok_iff, Settings.readCount_eq_ok_iff,
    Settings.readCount_eq_ok_iff, Settings.readKeys_eq_ok_iff]
  rfl

theorem exists_settings_iff {request : Request} :
    (∃ settings, request.settings = .ok settings) ↔ ∀ item ∈ request.items, item.Valid := by
  rw [← refusal?_eq_none_iff, refusal?_settings, List.findSome?_eq_none_iff]
  simp only [Item.refusal?_eq_none_iff]

/-- The first item that is not valid is the one that is blamed. -/
theorem mapError_settings_eq_error_iff {request : Request} {texts : List String} :
    request.settings.mapError SettingFault.texts = .error texts ↔
      ∃ before item after, request.items = before ++ item :: after ∧ item.Offends texts ∧
        ∀ earlier ∈ before, earlier.Valid := by
  rw [mapError_eq_error_iff, refusal?_settings, List.map_findSome?, List.findSome?_eq_some_iff]
  simp only [Function.comp_apply, Option.map_eq_none_iff, Item.refusal?_eq_none_iff,
    Item.offends_iff]

theorem Respells.settings_iff {request other : Request} (respells : request.Respells other)
    {settings : Settings} :
    other.settings = .ok settings ↔ request.settings = .ok settings := by
  rw [settings_eq_ok_iff, settings_eq_ok_iff, counts_iff_of_alike respells.cycles,
    counts_iff_of_alike respells.frames, denoted_iff_of_alike respells.keys, respells.dump]

private theorem report?_plan_of_refused {request : Request} {fault : SettingFault}
    (refused : request.settings = .error fault) (entropy : Entropy)
    (opening : String → Opening) :
    request.plan.report? entropy opening =
      some (.ofProblem (verbosityOfCount request.verbosity) [] (.setting fault)) := by
  rw [plan, refused, Plan.report?]

/-- The settings of a request are accepted exactly when all of them are valid, and are then what
their texts denote, however these are spelt. Otherwise the first that is not valid is blamed, and
the request is answered with that alone, whatever files there are. -/
theorem settings_checked_in_order (request : Request) :
    ((∃ settings, request.settings = .ok settings) ↔ ∀ item ∈ request.items, item.Valid) ∧
      (∀ settings, request.settings = .ok settings ↔
        Counts 10 request.cycles settings.cycles ∧ Counts 60 request.frames settings.frames ∧
          List.Forall₂ (fun text key => Numeral.Denotes 16 text key.val)
            request.keys settings.keys ∧
          request.dump = settings.dump) ∧
      (∀ other : Request, request.Respells other →
        ∀ settings, other.settings = .ok settings ↔ request.settings = .ok settings) ∧
      (∀ texts, request.settings.mapError SettingFault.texts = .error texts ↔
        ∃ before item after, request.items = before ++ item :: after ∧ item.Offends texts ∧
          ∀ earlier ∈ before, earlier.Valid) ∧
      ∀ fault, request.settings = .error fault → ∀ entropy opening,
        request.plan.report? entropy opening =
          some (.ofProblem (verbosityOfCount request.verbosity) [] (.setting fault)) := by
  refine ⟨exists_settings_iff, ?_, ?_, ?_, ?_⟩
  · intro settings
    exact settings_eq_ok_iff
  · intro other respells settings
    exact respells.settings_iff
  · intro texts
    exact mapError_settings_eq_error_iff
  · intro fault refused entropy opening
    exact report?_plan_of_refused refused entropy opening

example (entropy : Entropy) (opening : String → Opening) :
    let request : Request :=
      { file := "rom"
        cycles := none
        frames := some "x"
        keys := ["1F"]
        dump := false
        verbosity := 0 }
    request.plan.report? entropy opening =
      some
        { exit := 1
          output := []
          log := ["ERROR: invalid frames argument"] } := rfl

end Request

end Chip8.Runner
