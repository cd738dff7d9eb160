import LvdTerm.Core.ShortcutKeys
import LvdTerm.Lib.Runs

/-!
# ShortcutManager: the settings under the overrides

The user's keys as the ini file keeps them: what the constructor makes of a file, what each setter writes into it, and what another start
reads. An override is to say that a key differs from the default. The custom shortcuts, which have no default, are kept elsewhere
in the file.
-/
namespace LvdTerm.Core.ShortcutSettings

open Lib.Runs ShortcutManager

/-! ## QSettings -/

/-- A value of the ini file; an unquoted comma makes it a list. -/
inductive QVariant where
  | string (text : QString)
  | stringList (parts : List QString)
  | other (text : QString)

/-- `a` and `b` joined with a comma where the backend has split them. -/
def asString : QVariant → QString
  | .string text => text
  | .stringList parts => [','].intercalate parts
  | .other text => text

/-- `QKeySequence::PortableText`, and what QSettings makes of a value that is written and read again. -/
structure KeyText where
  toString : QKeySequence → QString
  fromString : QString → QKeySequence
  fromString_toString : ∀ sequence, fromString (toString (firstChord sequence)) = firstChord sequence
  reload : QVariant → QVariant
  asString_reload : ∀ value, asString (reload value) = asString value

abbrev Settings := CommandId → Option QVariant

/-- The manager and its group of the settings. -/
structure Session where
  manager : ShortcutManager
  settings : Settings

section Operations

variable (keys : KeyText)

def chordOf (value : QVariant) : QKeySequence := firstChord (keys.fromString (asString value))

/-- `custom` are the custom shortcuts the file holds. -/
def construct (settings : Settings) (custom : List CustomShortcut) : Session where
  manager.overrides id := (settings id).map (chordOf keys)
  manager.customShortcuts := custom
  settings := settings

def isCustomized (s : ShortcutManager) (id : CommandId) : Bool := (s.overrides id).isSome

namespace Session

def setSequence (id : ShortcutId) (requested : QKeySequence) (s : Session) : Session :=
  let sequence := firstChord requested
  match id with
  | .custom _ => { s with manager := s.manager.setSequence id requested }
  | .command name =>
    if s.manager.sequence id = sequence then s
    else if sequence = defaultSequence name then
      { manager := { s.manager with overrides := Function.update s.manager.overrides name none }
        settings := Function.update s.settings name none }
    else
      { manager := { s.manager with overrides := Function.update s.manager.overrides name (some sequence) }
        settings := Function.update s.settings name (some (.string (keys.toString sequence))) }

def resetToDefault (id : ShortcutId) (s : Session) : Session :=
  match command id with
  | some c => s.setSequence keys id c.defaultSequence
  | none => s

/-- The keys of the overrides go; without overrides this is nothing. -/
def resetAllToDefaults (s : Session) : Session where
  manager := s.manager.resetAllToDefaults
  settings id := if (s.manager.overrides id).isSome then none else s.settings id

/-- Another start, on what the file holds. -/
def restart (custom : List CustomShortcut) (s : Session) : Session :=
  construct keys (fun id => (s.settings id).map keys.reload) custom

end Session

inductive Event where
  | setSequence (id : ShortcutId) (requested : QKeySequence)
  | resetToDefault (id : ShortcutId)
  | resetAllToDefaults
  | restart (custom : List CustomShortcut)

def step (s : Session) : Event → Session
  | .setSequence id requested => s.setSequence keys id requested
  | .resetToDefault id => s.resetToDefault keys id
  | .resetAllToDefaults => s.resetAllToDefaults
  | .restart custom => s.restart keys custom

end Operations

/-- The key of a command in a version with these defaults. -/
def effective (defaults : CommandId → QKeySequence) (s : ShortcutManager) (id : CommandId) : QKeySequence :=
  (s.overrides id).getD (defaults id)

theorem sequence_eq_effective (s : ShortcutManager) (id : CommandId) : s.sequence (.command id) = effective defaultSequence s id := by
  rw [ShortcutManager.sequence, effective]
  cases s.overrides id <;> rfl

/-- An override is a difference from the default, in the manager, in the settings and at the next start. -/
structure Meaningful (keys : KeyText) (s : Session) : Prop where
  customized : ∀ id, isCustomized s.manager id ↔ s.manager.sequence (.command id) ≠ defaultSequence id
  stored : ∀ id, (s.settings id).isSome ↔ s.manager.sequence (.command id) ≠ defaultSequence id
  restarted : ∀ id custom, (s.restart keys custom).manager.sequence (.command id) = s.manager.sequence (.command id)
  reset : ∀ id, isCustomized (s.resetToDefault keys (.command id)).manager id = false
  /-- A later version, with other defaults, uses its own. -/
  later : ∀ id custom defaults,
    effective defaults ((s.resetToDefault keys (.command id)).restart keys custom).manager id = defaults id

variable {keys : KeyText}

/-! ## The manager of the model -/

@[simp] theorem manager_setSequence (id : ShortcutId) (requested : QKeySequence) (s : Session) :
    (s.setSequence keys id requested).manager = s.manager.setSequence id requested := by
  cases id with
  | custom uuid => rfl
  | command name =>
    simp only [Session.setSequence, ShortcutManager.setSequence]
    split
    · rfl
    · split <;> rfl

theorem resetToDefault_eq (id : CommandId) (s : Session) :
    s.resetToDefault keys (.command id) = s.setSequence keys (.command id) (defaultSequence id) := by
  obtain ⟨c, hc⟩ := command_isSome id
  rw [Session.resetToDefault, hc, defaultSequence, hc]
  rfl

theorem firstChord_defaultSequence (id : CommandId) : firstChord (defaultSequence id) = defaultSequence id := by
  obtain ⟨c, hc⟩ := command_isSome id
  rw [defaultSequence, hc]
  exact firstChord_default c (mem_table_of_command hc).1

/-! ## What every step keeps -/

/-- The overrides are what the settings say. -/
def Tracks (keys : KeyText) (s : Session) : Prop := ∀ id, s.manager.overrides id = (s.settings id).map (chordOf keys)

/-- No override repeats the default. -/
def Differs (s : Session) : Prop := ∀ id, s.manager.overrides id ≠ some (defaultSequence id)

theorem tracks_construct (settings : Settings) (custom : List CustomShortcut) : Tracks keys (construct keys settings custom) := fun _ => rfl

theorem chordOf_reload (value : QVariant) : chordOf keys (keys.reload value) = chordOf keys value := by
  rw [chordOf, keys.asString_reload, chordOf]

theorem overrides_restart {s : Session} (h : Tracks keys s) (custom : List CustomShortcut) (id : CommandId) :
    (s.restart keys custom).manager.overrides id = s.manager.overrides id := by
  rw [h id]
  show ((s.settings id).map keys.reload).map (chordOf keys) = _
  rw [Option.map_map]
  exact congrArg (Option.map · (s.settings id)) (funext chordOf_reload)

theorem chordOf_written (sequence : QKeySequence) : chordOf keys (.string (keys.toString (firstChord sequence))) = firstChord sequence := by
  rw [chordOf, asString, keys.fromString_toString, firstChord_firstChord]

theorem Tracks.setSequence {s : Session} (h : Tracks keys s) (id : ShortcutId) (requested : QKeySequence) :
    Tracks keys (s.setSequence keys id requested) := by
  cases id with
  | custom uuid => exact h
  | command name =>
    intro id
    simp only [Session.setSequence]
    split
    · exact h id
    · split
      · by_cases hid : id = name
        · simp [hid]
        · simpa [hid] using h id
      · by_cases hid : id = name
        · simp [hid, chordOf_written]
        · simpa [hid] using h id

theorem Tracks.resetToDefault {s : Session} (h : Tracks keys s) (id : ShortcutId) : Tracks keys (s.resetToDefault keys id) := by
  unfold Session.resetToDefault
  split
  · exact h.setSequence id _
  · exact h

theorem Tracks.resetAllToDefaults {s : Session} (h : Tracks keys s) : Tracks keys s.resetAllToDefaults := by
  intro id
  have hid := h id
  show none = Option.map _ (if _ then none else _)
  split
  · rfl
  · next hnone =>
    rw [hid, Option.isSome_map, Bool.not_eq_true, Option.isSome_eq_false_iff, Option.isNone_iff_eq_none] at hnone
    rw [hnone]
    rfl

theorem Tracks.step {s : Session} (h : Tracks keys s) (e : Event) : Tracks keys (step keys s e) := by
  cases e with
  | setSequence id requested => exact h.setSequence id requested
  | resetToDefault id => exact h.resetToDefault id
  | resetAllToDefaults => exact h.resetAllToDefaults
  | restart custom => exact tracks_construct _ custom

theorem Differs.setSequence {s : Session} (h : Differs s) (id : ShortcutId) (requested : QKeySequence) :
    Differs (s.setSequence keys id requested) := by
  cases id with
  | custom uuid => exact h
  | command name =>
    intro id
    simp only [Session.setSequence]
    split
    · exact h id
    · split
      · by_cases hid : id = name
        · simp [hid]
        · simpa [hid] using h id
      · next hne =>
        by_cases hid : id = name
        · simpa [hid] using hne
        · simpa [hid] using h id

theorem Differs.resetToDefault {s : Session} (h : Differs s) (id : ShortcutId) : Differs (s.resetToDefault keys id) := by
  unfold Session.resetToDefault
  split
  · exact h.setSequence id _
  · exact h

/-- Both are kept, by another start too, which reads what the settings track. -/
theorem agree_step {s : Session} (h : Tracks keys s ∧ Differs s) (e : Event) :
    Tracks keys (step keys s e) ∧ Differs (step keys s e) := by
  refine ⟨h.1.step e, ?_⟩
  cases e with
  | setSequence id requested => exact h.2.setSequence id requested
  | resetToDefault id => exact h.2.resetToDefault id
  | resetAllToDefaults => exact fun id => nofun
  | restart custom =>
    intro id
    rw [step, overrides_restart h.1]
    exact h.2 id

/-! ## What it comes to -/

theorem isCustomized_iff {s : Session} (h : Differs s) (id : CommandId) :
    isCustomized s.manager id ↔ s.manager.sequence (.command id) ≠ defaultSequence id := by
  rw [sequence_eq_effective, effective, isCustomized]
  cases hid : s.manager.overrides id with
  | none => simp
  | some sequence =>
    have hne : sequence ≠ defaultSequence id := fun heq => h id (by rw [hid, heq])
    simpa using hne

theorem Tracks.stored_iff {s : Session} (h : Tracks keys s) (id : CommandId) : (s.settings id).isSome ↔ isCustomized s.manager id := by
  rw [isCustomized, h id, Option.isSome_map]

theorem sequence_resetToDefault (s : Session) (id : CommandId) :
    (s.resetToDefault keys (.command id)).manager.sequence (.command id) = defaultSequence id := by
  rw [resetToDefault_eq, manager_setSequence, sequence_setSequence_self (by trivial), firstChord_defaultSequence]

theorem not_customized_resetToDefault {s : Session} (h : Differs s) (id : CommandId) :
    isCustomized (s.resetToDefault keys (.command id)).manager id = false := by
  rw [Bool.eq_false_iff]
  intro hcustomized
  exact (isCustomized_iff (h.resetToDefault (.command id)) id).mp hcustomized (sequence_resetToDefault s id)

theorem meaningful {s : Session} (htracks : Tracks keys s) (hdiffers : Differs s) : Meaningful keys s where
  customized id := isCustomized_iff hdiffers id
  stored id := (htracks.stored_iff id).trans (isCustomized_iff hdiffers id)
  restarted id custom := by
    rw [sequence_eq_effective, sequence_eq_effective, effective, effective, overrides_restart htracks]
  reset id := not_customized_resetToDefault hdiffers id
  later id custom defaults := by
    have hnone : isCustomized (s.resetToDefault keys (.command id)).manager id = false := not_customized_resetToDefault hdiffers id
    rw [isCustomized, Option.isSome_eq_false_iff, Option.isNone_iff_eq_none] at hnone
    rw [effective, overrides_restart (htracks.resetToDefault (.command id)), hnone]
    rfl

/-- Every run from a file has overrides that mean a difference iff no entry of the file repeats a default. -/
theorem overrides_meaningful_iff (keys : KeyText) (file : Settings) (custom : List CustomShortcut) :
    (∀ events, Meaningful keys (run (step keys) events (construct keys file custom))) ↔
      ∀ id value, file id = some value → chordOf keys value ≠ defaultSequence id := by
  constructor
  · intro h id value hvalue heq
    have hid : (construct keys file custom).manager.overrides id = some (defaultSequence id) := by
      rw [tracks_construct file custom id, ← heq]
      exact congrArg (Option.map (chordOf keys)) hvalue
    apply ((h []).customized id).mp
    · rw [run, isCustomized, hid]
      rfl
    · rw [run, sequence_eq_effective, effective, hid]
      rfl
  · intro h events
    have hdiffers : Differs (construct keys file custom) := by
      intro id hid
      obtain ⟨value, hvalue, heq⟩ := Option.map_eq_some_iff.mp hid
      exact h id value hvalue heq
    have hagree := run_keeps (I := fun s => Tracks keys s ∧ Differs s) (fun s e h => agree_step h e) events
      ⟨tracks_construct file custom, hdiffers⟩
    exact meaningful hagree.1 hagree.2

/-! ## A file that repeats a default -/

/-- A letter as Qt writes it; any other key as a row of signs. -/
def keyName (key : Nat) : QString := if 'A'.toNat ≤ key ∧ key ≤ 'Z'.toNat then [Char.ofNat key] else '#' :: List.replicate key '#'

def keyOf : QString → Nat
  | '#' :: rest => rest.length
  | c :: _ => c.toNat
  | [] => 0

def portableText : QKeySequence → QString
  | [] => []
  | c :: _ =>
    (if c.metaKey then ['M', 'e', 't', 'a', '+'] else []) ++ (if c.control then ['C', 't', 'r', 'l', '+'] else []) ++
      (if c.alt then ['A', 'l', 't', '+'] else []) ++ (if c.shift then ['S', 'h', 'i', 'f', 't', '+'] else []) ++ keyName c.key

/-- Whether the text starts with the modifier, and what is behind it. -/
def strip (modifier text : QString) : Bool × QString :=
  if modifier.isPrefixOf text then (true, text.drop modifier.length) else (false, text)

def ofPortableText (text : QString) : QKeySequence :=
  if text = [] then []
  else
    let (metaKey, text) := strip ['M', 'e', 't', 'a', '+'] text
    let (control, text) := strip ['C', 't', 'r', 'l', '+'] text
    let (alt, text) := strip ['A', 'l', 't', '+'] text
    let (shift, text) := strip ['S', 'h', 'i', 'f', 't', '+'] text
    [{ control, shift, alt, metaKey, key := keyOf text }]

theorem keyOf_keyName (key : Nat) : keyOf (keyName key) = key := by
  unfold keyName
  split
  · next h =>
    have hvalid : (Char.ofNat key).toNat = key := by
      rw [Char.ofNat, dif_pos (by left; simp at h; omega)]
      rfl
    have hsign : Char.ofNat key ≠ '#' := by
      intro heq
      rw [heq] at hvalid
      rw [← hvalid] at h
      exact absurd h (by decide)
    unfold keyOf
    split
    · next heq => exact absurd (List.cons.inj heq).1 hsign
    · next heq => rw [← (List.cons.inj heq).1, hvalid]
    · next heq => cases heq
  · rw [keyOf, List.length_replicate]

theorem strip_keyName (a b : Char) (rest : QString) (ha : a ≠ '#') (key : Nat) :
    strip (a :: b :: rest) (keyName key) = (false, keyName key) := by
  unfold strip keyName
  split
  · simp
  · simp [ha]

theorem keyName_ne_nil (key : Nat) : keyName key ≠ [] := by
  unfold keyName
  split <;> nofun

theorem ofPortableText_portableText (sequence : QKeySequence) :
    ofPortableText (portableText (firstChord sequence)) = firstChord sequence := by
  match sequence with
  | [] => rfl
  | ⟨control, shift, alt, metaKey, key⟩ :: rest =>
    have hmeta := strip_keyName 'M' 'e' ['t', 'a', '+'] (by decide) key
    have hcontrol := strip_keyName 'C' 't' ['r', 'l', '+'] (by decide) key
    have halt := strip_keyName 'A' 'l' ['t', '+'] (by decide) key
    have hshift := strip_keyName 'S' 'h' ['i', 'f', 't', '+'] (by decide) key
    have hkey := keyOf_keyName key
    have hne := keyName_ne_nil key
    cases control <;> cases shift <;> cases alt <;> cases metaKey <;>
      simp_all [firstChord, portableText, ofPortableText, strip]

def portable : KeyText where
  toString := portableText
  fromString := ofPortableText
  fromString_toString := ofPortableText_portableText
  reload := id
  asString_reload _ := rfl

/-- A file with the default of New Local Terminal written out. -/
def repeating : Settings := Function.update (fun _ => none) .connectionNewLocal (some (.string ['C', 't', 'r', 'l', '+', 'T']))

/-- The command is customised with its default as its key, also after a reset, and a new default does not reach it. -/
theorem repeated_default :
    let s := construct portable repeating []
    let s' := s.resetToDefault portable (.command .connectionNewLocal)
    isCustomized s.manager .connectionNewLocal = true ∧
      s.manager.sequence (.command .connectionNewLocal) = defaultSequence .connectionNewLocal ∧
      isCustomized s'.manager .connectionNewLocal = true ∧
      effective (fun _ => ctrl 'N') (s'.restart portable []).manager .connectionNewLocal = ctrl 'T' := by
  decide

end LvdTerm.Core.ShortcutSettings
