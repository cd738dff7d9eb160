import LvdTerm.Core.Folders
import LvdTerm.Lib.Runs

/-!
# ConnectionTreeDock

The tree of saved connections: what is shown for a store, and what the actions on its items do with what is typed into their dialogs.
The tree is built again whenever the store has changed. Icons, sorting and the texts of the questions are left out.
-/
namespace LvdTerm.Ui

open Core Lib.Components

/-- `QChar::isSpace` -/
def isSpace (c : Char) : Bool :=
  let n := c.toNat
  n = 0x20 || (0x09 ≤ n && n ≤ 0x0D) || n = 0x85 || n = 0xA0 || n = 0x1680 || (0x2000 ≤ n && n ≤ 0x200A) || n = 0x2028 || n = 0x2029 ||
    n = 0x202F || n = 0x205F || n = 0x3000

/-- `QString::trimmed` -/
def trimmed (text : QString) : QString := ((text.dropWhile isSpace).reverse.dropWhile isSpace).reverse

/-- `ConnectionEditDialog::profile`, from what is in its fields. -/
def dialogProfile (fields : ConnectionProfile) : ConnectionProfile :=
  let folderParts := ((parts '/' fields.folder).filter (trimmed · ≠ [])).map trimmed
  { fields with name := trimmed fields.name, folder := join '/' folderParts, logFilePath := trimmed fields.logFilePath }

namespace ConnectionTreeDock

/-! ## The tree -/

inductive Item where
  | folder (path text parent : QString)
  | connection (id : QUuid) (text parent : QString)

def Item.folderPath? : Item → Option QString
  | .folder path _ _ => some path
  | .connection _ _ _ => none

/-- `path.left(lastSlash)`, empty where there is no slash. -/
def beforeLastSlash (path : QString) : QString := ((path.reverse.dropWhile (· ≠ '/')).drop 1).reverse

/-- `path.mid(lastSlash + 1)` -/
def afterLastSlash (path : QString) : QString := (path.reverse.takeWhile (· ≠ '/')).reverse

theorem length_beforeLastSlash_lt {path : QString} (h : path ≠ []) : (beforeLastSlash path).length < path.length := by
  have hpos := List.length_pos_iff.mpr h
  have hle := (List.dropWhile_suffix (· ≠ '/') (l := path.reverse)).length_le
  simp only [beforeLastSlash, List.length_reverse, List.length_drop] at hle ⊢
  omega

/-- `folderItems` are the items that were made so far. -/
def ensureFolderItem (path : QString) (folderItems : List Item) : List Item :=
  if _ : path = [] then folderItems
  else if path ∈ folderItems.filterMap Item.folderPath? then folderItems
  else
    let parentPath := beforeLastSlash path
    ensureFolderItem parentPath folderItems ++ [.folder path (afterLastSlash path) parentPath]
termination_by path.length
decreasing_by exact length_beforeLastSlash_lt ‹_›

/-- The loop over the profiles. -/
def addConnections : List ConnectionProfile → List Item → List Item
  | [], items => items
  | p :: ps, items =>
    let text := if p.name = [] then "(unnamed)".toList else p.name
    addConnections ps (ensureFolderItem p.folder items ++ [.connection p.id text p.folder])

def rebuildTree (s : ProfileStore) : List Item :=
  addConnections s.profiles (s.emptyFolders.foldl (fun items folder => ensureFolderItem folder items) [])

/-! ## Actions -/

def folderPathOf : Option Item → QString
  | none => []
  | some (.folder path _ _) => path
  | some (.connection _ _ parent) => parent

/-- A name below a folder, or at the top. -/
def under (parentPath name : QString) : QString := if parentPath = [] then name else parentPath ++ '/' :: name

/-- `fields` is what the dialog holds when it is accepted; the folder of the item is only what it holds at first. -/
def newConnection (fields : Option ConnectionProfile) (s : ProfileStore) : Option ProfileStore :=
  match fields with
  | none => none
  | some fields => s.addProfile (dialogProfile fields)

/-- The connection an item stands for. -/
def profileOf (item : Option Item) (s : ProfileStore) : Option ConnectionProfile :=
  match item with
  | some (.connection id _ _) => s.profiles.find? (·.id = id)
  | _ => none

def editItem (item : Option Item) (fields : Option ConnectionProfile) (s : ProfileStore) : Option ProfileStore :=
  match profileOf item s, fields with
  | some p, some fields => s.updateProfile (dialogProfile { fields with id := p.id })
  | _, _ => none

def duplicateItem (item : Option Item) (newId : QUuid) (s : ProfileStore) : Option ProfileStore :=
  match profileOf item s with
  | none => none
  | some p => s.addProfile { p with id := newId, name := p.name ++ " (copy)".toList }

def deleteItem (item : Option Item) (yes : Bool) (s : ProfileStore) : Option ProfileStore :=
  match item with
  | some (.connection id _ _) => if yes then s.removeProfile id else none
  | _ => none

def renameFolderItem (item : Option Item) (answer : Option QString) (s : ProfileStore) : Option ProfileStore :=
  match item, answer with
  | some (.folder oldPath text _), some newName =>
    if newName = [] ∨ newName = text then none else s.renameFolder oldPath (under (beforeLastSlash oldPath) newName)
  | _, _ => none

def newFolder (item : Option Item) (answer : Option QString) (s : ProfileStore) : Option ProfileStore :=
  match answer with
  | none => none
  | some name => if name = [] then none else s.addEmptyFolder (under (folderPathOf item) name)

def deleteFolder (item : Option Item) (yes : Bool) (s : ProfileStore) : Option ProfileStore :=
  match item with
  | some (.folder path _ _) => if yes then s.removeFolder path else none
  | _ => none

/-- An action, with the index of the item it is for (none has an index past the end) and what the user answers. -/
inductive Event where
  | newConnection (fields : Option ConnectionProfile)
  | editItem (item : Nat) (fields : Option ConnectionProfile)
  | duplicateItem (item : Nat) (newId : QUuid)
  | deleteItem (item : Nat) (yes : Bool)
  | renameFolderItem (item : Nat) (answer : Option QString)
  | newFolder (item : Nat) (answer : Option QString)
  | deleteFolder (item : Nat) (yes : Bool)

def change (s : ProfileStore) : Event → Option ProfileStore
  | .newConnection fields => newConnection fields s
  | .editItem item fields => editItem (rebuildTree s)[item]? fields s
  | .duplicateItem item newId => duplicateItem (rebuildTree s)[item]? newId s
  | .deleteItem item yes => deleteItem (rebuildTree s)[item]? yes s
  | .renameFolderItem item answer => renameFolderItem (rebuildTree s)[item]? answer s
  | .newFolder item answer => newFolder (rebuildTree s)[item]? answer s
  | .deleteFolder item yes => deleteFolder (rebuildTree s)[item]? yes s

def step (s : ProfileStore) (event : Event) : ProfileStore := (change s event).getD s

end ConnectionTreeDock

end LvdTerm.Ui
