import LvdTerm.Core.ShortcutManager
import LvdTerm.Lib.Runs
import LvdTerm.Ui.ConnectionTreeDock

/-!
# ShortcutsPage

What the buttons of the Keyboard Shortcuts page do to the shortcuts, with what the user records or types and how the questions are
answered. The list and its filter are left out.
-/
namespace LvdTerm.Ui.ShortcutsPage

open Core Core.ShortcutManager

/-- `yes` is the answer to the question whether to take the key from the command that has it. -/
def assign (id : ShortcutId) (sequence : QKeySequence) (yes : Bool) (s : ShortcutManager) : ShortcutManager × Bool :=
  if !isAcceptable sequence then (s, false)
  else
    match s.conflictingCommand id sequence with
    | some other => if !yes then (s, false) else ((s.setSequence other []).setSequence id sequence, true)
    | none => (s.setSequence id sequence, true)

/-- What the key box holds when the dialog is accepted. -/
def captureSequence (keys : Option QKeySequence) : Option QKeySequence := keys.map firstChord

/-- `fields` is what the dialog holds when it is accepted, which it is not without a name, a key and a text. -/
def editCustom (shortcut : CustomShortcut) (fields : Option CustomShortcut) : Option CustomShortcut :=
  match fields with
  | none => none
  | some f =>
    if trimmed f.name = [] ∨ f.text = [] ∨ f.sequence = [] ∨ !isAcceptable f.sequence then none
    else some { shortcut with name := trimmed f.name, sequence := firstChord f.sequence, text := f.text, appendEnter := f.appendEnter }

def changeSelected (id : ShortcutId) (keys : Option QKeySequence) (yes : Bool) (s : ShortcutManager) : ShortcutManager :=
  match captureSequence keys with
  | none => s
  | some chosen => (assign id chosen yes s).1

def clearSelected (id : ShortcutId) (s : ShortcutManager) : ShortcutManager := s.setSequence id []

def resetSelected (id : ShortcutId) (yes : Bool) (s : ShortcutManager) : ShortcutManager :=
  match command id with
  | none => s
  | some command => (assign id command.defaultSequence yes s).1

/-- The loop over the custom shortcuts as they are when it starts. -/
def clearClashes : List CustomShortcut → ShortcutManager → ShortcutManager
  | [], s => s
  | custom :: rest, s =>
    if (s.conflictingCommand custom.id custom.sequence).isSome then clearClashes rest (s.setSequence custom.id [])
    else clearClashes rest s

def resetAll (yes : Bool) (s : ShortcutManager) : ShortcutManager :=
  if !yes then s
  else
    let s := s.resetAllToDefaults
    clearClashes s.customShortcuts s

def addCustom (uuid : QUuid) (fields : Option CustomShortcut) (yes : Bool) (s : ShortcutManager) : ShortcutManager :=
  match editCustom ⟨uuid, [], [], [], false⟩ fields with
  | none => s
  | some shortcut =>
    let (s, done) := assign shortcut.id shortcut.sequence yes (s.addCustom { shortcut with sequence := [] })
    if done then s else s.removeCustom uuid

def editSelectedCustom (id : ShortcutId) (fields : Option CustomShortcut) (yes : Bool) (s : ShortcutManager) : ShortcutManager :=
  match s.customShortcuts.find? (·.id = id) with
  | none => s
  | some before =>
    match editCustom before fields with
    | none => s
    | some shortcut =>
      let wanted := shortcut.sequence
      let s := s.updateCustom { shortcut with sequence := before.sequence }
      if wanted = before.sequence then s
      else
        let (s, done) := assign id wanted yes s
        if done then s else s.setSequence id before.sequence

def deleteSelectedCustom (id : ShortcutId) (yes : Bool) (s : ShortcutManager) : ShortcutManager :=
  match id with
  | .command _ => s
  | .custom uuid => if yes then s.removeCustom uuid else s

/-- `yes` answers the question that is asked, if one is. -/
inductive Event where
  | changeSelected (id : ShortcutId) (keys : Option QKeySequence) (yes : Bool)
  | clearSelected (id : ShortcutId)
  | resetSelected (id : ShortcutId) (yes : Bool)
  | resetAll (yes : Bool)
  | addCustom (uuid : QUuid) (fields : Option CustomShortcut) (yes : Bool)
  | editSelectedCustom (id : ShortcutId) (fields : Option CustomShortcut) (yes : Bool)
  | deleteSelectedCustom (id : ShortcutId) (yes : Bool)

def step (s : ShortcutManager) : Event → ShortcutManager
  | .changeSelected id keys yes => changeSelected id keys yes s
  | .clearSelected id => clearSelected id s
  | .resetSelected id yes => resetSelected id yes s
  | .resetAll yes => resetAll yes s
  | .addCustom uuid fields yes => addCustom uuid fields yes s
  | .editSelectedCustom id fields yes => editSelectedCustom id fields yes s
  | .deleteSelectedCustom id yes => deleteSelectedCustom id yes s

end LvdTerm.Ui.ShortcutsPage
