import LvdTerm.Core.ConnectionProfile

/-!
# ProfileStore

The list of saved connections and its file. Every change writes all the profiles again. The
file system works here: what the loading and saving loops leave to chance is `Crypto`, whose
calls are given for each profile in turn.
-/
namespace LvdTerm.Core

structure ProfileStore where
  profiles : List ConnectionProfile
  emptyFolders : List QString

/-- What `connections.json` holds: nothing where there is no file, and `null` where it is no JSON. -/
abbrev ProfileFile := Option QJsonValue

/-- What the calls made for one profile give. -/
structure ProfileCalls where
  calls : Slot → SecretCall
  newId : QUuid

/-- The calls for the profile at each index. -/
abbrev StoreCalls := Nat → ProfileCalls

def StoreCalls.next (c : StoreCalls) : StoreCalls := fun i => c (i + 1)

variable (pl : Platform)

/-! ## The file -/

/-- The profile objects of a document; the bare array is the older format. -/
def profileObjects : ProfileFile → List QJsonObject
  | some (.array vs) => vs.filterMap QJsonValue.asObject
  | some (.object root) => (QJsonObject.value root "profiles").toArray.filterMap QJsonValue.asObject
  | _ => []

def folderNames : ProfileFile → List QString
  | some (.object root) => (QJsonObject.value root "emptyFolders").toArray.filterMap QJsonValue.asString
  | _ => []

def readProfiles : StoreCalls → List QJsonObject → List ConnectionProfile
  | _, [] => []
  | c, o :: os => .fromJson pl (c 0).calls (c 0).newId o :: readProfiles c.next os

def writeProfiles : StoreCalls → List ConnectionProfile → List QJsonObject
  | _, [] => []
  | c, p :: ps => p.toJson pl (c 0).calls :: writeProfiles c.next ps

def ProfileStore.load (c : StoreCalls) (file : ProfileFile) (s : ProfileStore) : ProfileStore :=
  if file.isNone then s else ⟨readProfiles pl c (profileObjects file), folderNames file⟩

/-- The document that `ProfileStore::save` writes. -/
def ProfileStore.document (c : StoreCalls) (s : ProfileStore) : QJsonObject :=
  [("profiles", .array ((writeProfiles pl c s.profiles).map .object)),
    ("emptyFolders", .array (s.emptyFolders.map .string))]

def ProfileStore.save (c : StoreCalls) (s : ProfileStore) : ProfileFile := some (.object (s.document pl c))

/-! ## Changes: the store to save, or `none` where the function returns without saving -/

/-- `folder.startsWith(path + '/')` -/
def inFolder (path folder : QString) : Bool := (path ++ ['/']).isPrefixOf folder

/-- The folder itself or one below it. -/
def matchesFolder (path folder : QString) : Bool := folder == path || inFolder path folder

namespace ProfileStore

def addProfile (profile : ConnectionProfile) (s : ProfileStore) : Option ProfileStore :=
  some { s with profiles := s.profiles ++ [profile] }

def updateProfile (profile : ConnectionProfile) (s : ProfileStore) : Option ProfileStore :=
  match s.profiles.findIdx? (·.id == profile.id) with
  | none => none
  | some i => some { s with profiles := s.profiles.set i profile }

def removeProfile (id : QUuid) (s : ProfileStore) : Option ProfileStore :=
  let profiles := s.profiles.filter (·.id != id)
  if profiles.length ≠ s.profiles.length then some { s with profiles } else none

def renamed (oldPath newPath : QString) (p : ConnectionProfile) : ConnectionProfile :=
  if p.folder = oldPath then { p with folder := newPath }
  else if inFolder oldPath p.folder then { p with folder := newPath ++ p.folder.drop oldPath.length }
  else p

def renameFolder (oldPath newPath : QString) (s : ProfileStore) : Option ProfileStore :=
  if oldPath = newPath then none
  else if s.profiles.any (fun p => matchesFolder oldPath p.folder) then
    some { s with profiles := s.profiles.map (renamed oldPath newPath) }
  else none

def addEmptyFolder (path : QString) (s : ProfileStore) : Option ProfileStore :=
  if path = [] ∨ path ∈ s.emptyFolders then none
  else some { s with emptyFolders := s.emptyFolders ++ [path] }

def removeFolder (path : QString) (s : ProfileStore) : Option ProfileStore :=
  if path = [] then none
  else
    let profiles := s.profiles.filter (fun p => !matchesFolder path p.folder)
    let emptyFolders := s.emptyFolders.filter (fun folder => !matchesFolder path folder)
    if profiles.length ≠ s.profiles.length ∨ emptyFolders.length ≠ s.emptyFolders.length then
      some ⟨profiles, emptyFolders⟩
    else none

end ProfileStore

inductive StoreChange where
  | addProfile (profile : ConnectionProfile)
  | updateProfile (profile : ConnectionProfile)
  | removeProfile (id : QUuid)
  | renameFolder (oldPath newPath : QString)
  | addEmptyFolder (path : QString)
  | removeFolder (path : QString)

def ProfileStore.change (s : ProfileStore) : StoreChange → Option ProfileStore
  | .addProfile profile => s.addProfile profile
  | .updateProfile profile => s.updateProfile profile
  | .removeProfile id => s.removeProfile id
  | .renameFolder oldPath newPath => s.renameFolder oldPath newPath
  | .addEmptyFolder path => s.addEmptyFolder path
  | .removeFolder path => s.removeFolder path

/-! ## The store with its file -/

structure StoreOnDisk where
  store : ProfileStore
  file : ProfileFile

inductive StoreEvent where
  | load (c : StoreCalls)
  | change (change : StoreChange) (c : StoreCalls)

def StoreOnDisk.step (s : StoreOnDisk) : StoreEvent → StoreOnDisk
  | .load c => { s with store := s.store.load pl c s.file }
  | .change change c =>
    match s.store.change change with
    | none => s
    | some store => ⟨store, store.save pl c⟩

/-- `ProfileStore::ProfileStore` -/
def StoreOnDisk.construct (c : StoreCalls) (file : ProfileFile) : StoreOnDisk := ⟨ProfileStore.load pl c file ⟨[], []⟩, file⟩

/-! ## What is written is what the loading loop finds -/

theorem filterMap_asObject (os : List QJsonObject) : (os.map QJsonValue.object).filterMap QJsonValue.asObject = os := by
  induction os with
  | nil => rfl
  | cons o os ih =>
    rw [List.map_cons, List.filterMap_cons]
    exact congrArg (List.cons o) ih

theorem profileObjects_save (c : StoreCalls) (s : ProfileStore) :
    profileObjects (s.save pl c) = writeProfiles pl c s.profiles :=
  filterMap_asObject (writeProfiles pl c s.profiles)

end LvdTerm.Core
