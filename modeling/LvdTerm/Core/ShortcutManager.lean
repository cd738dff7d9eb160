import Mathlib.Logic.Function.Basic
import LvdTerm.Core.ConnectionProfile

/-!
# ShortcutManager

The keys of all commands: the built-in table with the user's changes over it, and the custom shortcuts, which type a text. The file
they are kept in, labels and categories are left out.
-/
namespace LvdTerm.Core

/-- Modifiers and a key by its `Qt::Key` number. -/
structure QKeyCombination where
  control : Bool := false
  shift : Bool := false
  alt : Bool := false
  metaKey : Bool := false
  key : Nat
  deriving DecidableEq

/-- Up to four chords, none where a command is unbound. -/
abbrev QKeySequence := List QKeyCombination

inductive CommandId where
  | connectionNewLocal | connectionNewSerial | connectionNewTelnet | connectionNewSsh | connectionNewVnc | connectionNewRdp
  | connectionNewLoopback | connectionCloseTab
  | paneSplitRight | paneSplitDown | paneClose
  | terminalFind | terminalCopy | terminalPaste | terminalClearBuffer | terminalClearScreen | terminalLog
  | editorSave | editorClose | editorFind | editorFindNext | editorFindPrevious
  deriving DecidableEq

inductive Scope where
  | mainWindow | fileEditor
  deriving DecidableEq

structure ShortcutCommand where
  id : CommandId
  defaultSequence : QKeySequence
  scope : Scope
  deriving DecidableEq

/-- An id, which says what it is the id of: those of custom shortcuts are `custom.` with a UUID. -/
inductive ShortcutId where
  | command (id : CommandId)
  | custom (uuid : QUuid)
  deriving DecidableEq

structure CustomShortcut where
  uuid : QUuid
  name : QString
  sequence : QKeySequence
  text : QString
  appendEnter : Bool
  deriving DecidableEq

def CustomShortcut.id (c : CustomShortcut) : ShortcutId := .custom c.uuid

def firstChord (sequence : QKeySequence) : QKeySequence := sequence.take 1

namespace Qt

def Key_F1 : Nat := 0x01000030
def Key_F3 : Nat := 0x01000032
def Key_F35 : Nat := 0x01000052

end Qt

def ctrl (c : Char) : QKeySequence := [{ control := true, key := c.toNat }]

def ctrlShift (c : Char) : QKeySequence := [{ control := true, shift := true, key := c.toNat }]

def table : List ShortcutCommand := [
  ⟨.connectionNewLocal, ctrl 'T', .mainWindow⟩,
  ⟨.connectionNewSerial, [], .mainWindow⟩,
  ⟨.connectionNewTelnet, [], .mainWindow⟩,
  ⟨.connectionNewSsh, [], .mainWindow⟩,
  ⟨.connectionNewVnc, [], .mainWindow⟩,
  ⟨.connectionNewRdp, [], .mainWindow⟩,
  ⟨.connectionNewLoopback, [], .mainWindow⟩,
  ⟨.connectionCloseTab, ctrl 'W', .mainWindow⟩,
  ⟨.paneSplitRight, ctrlShift 'R', .mainWindow⟩,
  ⟨.paneSplitDown, ctrlShift 'D', .mainWindow⟩,
  ⟨.paneClose, ctrlShift 'W', .mainWindow⟩,
  ⟨.terminalFind, ctrlShift 'F', .mainWindow⟩,
  ⟨.terminalCopy, ctrlShift 'C', .mainWindow⟩,
  ⟨.terminalPaste, ctrlShift 'V', .mainWindow⟩,
  ⟨.terminalClearBuffer, [], .mainWindow⟩,
  ⟨.terminalClearScreen, [], .mainWindow⟩,
  ⟨.terminalLog, [], .mainWindow⟩,
  ⟨.editorSave, ctrl 'S', .fileEditor⟩,
  ⟨.editorClose, ctrl 'W', .fileEditor⟩,
  ⟨.editorFind, ctrl 'F', .fileEditor⟩,
  ⟨.editorFindNext, [{ key := Qt.Key_F3 }], .fileEditor⟩,
  ⟨.editorFindPrevious, [{ shift := true, key := Qt.Key_F3 }], .fileEditor⟩]

def ShortcutManager.isAcceptable : QKeySequence → Bool
  | [] => true
  | combination :: _ =>
    combination.control || combination.alt || combination.metaKey ||
      (decide (Qt.Key_F1 ≤ combination.key) && decide (combination.key ≤ Qt.Key_F35))

structure ShortcutManager where
  /-- The user's choice, which may be to have no key. -/
  overrides : CommandId → Option QKeySequence
  customShortcuts : List CustomShortcut

namespace ShortcutManager

/-- The row of the table; a custom shortcut has none. -/
def command : ShortcutId → Option ShortcutCommand
  | .command id => table.find? (·.id = id)
  | .custom _ => none

def defaultSequence (id : CommandId) : QKeySequence := ((command (.command id)).map (·.defaultSequence)).getD []

def sequence (s : ShortcutManager) : ShortcutId → QKeySequence
  | .custom uuid => ((s.customShortcuts.find? (·.uuid = uuid)).map (·.sequence)).getD []
  | .command id =>
    match s.overrides id with
    | some sequence => sequence
    | none => defaultSequence id

def setSequence (id : ShortcutId) (requested : QKeySequence) (s : ShortcutManager) : ShortcutManager :=
  let sequence := firstChord requested
  match id with
  | .custom uuid =>
    { s with customShortcuts := s.customShortcuts.map fun c => if c.uuid = uuid ∧ c.sequence ≠ sequence then { c with sequence } else c }
  | .command name =>
    if s.sequence id = sequence then s
    else if sequence = defaultSequence name then { s with overrides := Function.update s.overrides name none }
    else { s with overrides := Function.update s.overrides name (some sequence) }

def resetAllToDefaults (s : ShortcutManager) : ShortcutManager := { s with overrides := fun _ => none }

def addCustom (shortcut : CustomShortcut) (s : ShortcutManager) : ShortcutManager :=
  { s with customShortcuts := s.customShortcuts ++ [{ shortcut with sequence := firstChord shortcut.sequence }] }

/-- The first one with the id. -/
def updateFirst (shortcut : CustomShortcut) : List CustomShortcut → List CustomShortcut
  | [] => []
  | existing :: rest =>
    if existing.uuid = shortcut.uuid then { shortcut with sequence := firstChord shortcut.sequence } :: rest
    else existing :: updateFirst shortcut rest

def updateCustom (shortcut : CustomShortcut) (s : ShortcutManager) : ShortcutManager :=
  { s with customShortcuts := updateFirst shortcut s.customShortcuts }

def removeCustom (uuid : QUuid) (s : ShortcutManager) : ShortcutManager :=
  { s with customShortcuts := s.customShortcuts.eraseP (·.uuid = uuid) }

/-- Custom shortcuts are main-window ones. -/
def scopeOf (id : ShortcutId) : Scope := ((command id).map (·.scope)).getD .mainWindow

def conflictingCommand (id : ShortcutId) (sequence : QKeySequence) (s : ShortcutManager) : Option ShortcutId :=
  if sequence = [] then none
  else
    match table.find? fun c => .command c.id ≠ id ∧ c.scope = scopeOf id ∧ s.sequence (.command c.id) = sequence with
    | some c => some (.command c.id)
    | none =>
      if scopeOf id = .mainWindow then
        (s.customShortcuts.find? fun c => c.id ≠ id ∧ c.sequence = sequence).map (·.id)
      else none

end ShortcutManager

end LvdTerm.Core
