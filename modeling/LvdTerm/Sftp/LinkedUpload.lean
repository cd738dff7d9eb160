import LvdTerm.Lib.Descent
import LvdTerm.Sftp.UploadTree

/-!
# Uploading a directory with links

`uploadDirectoryRecursive` over local directories that may hold links. `QFileInfo::isDir` follows a link, so a link to a
directory is descended into like the directory itself. `depth` bounds the recursion; the call returns if some depth is
enough. The calls on the server are given by what comes of them.
-/
namespace LvdTerm.Sftp.LinkedUpload

open Lib.Paths
open Lib.Descent

/-- What `QDir::entryInfoList` lists, `D` being the directories there are. -/
inductive DirEntry (D : Type) where
  | file
  | dir (sub : D)
  | linkToFile
  | linkToDir (target : D)
  deriving DecidableEq

/-- `QFileInfo::isDir`, with the directory. -/
def DirEntry.isDir {D : Type} : DirEntry D → Option D
  | .dir sub => some sub
  | .linkToDir target => some target
  | .file | .linkToFile => none

structure LocalDirs (D : Type) where
  entryInfoList : D → List (Text × DirEntry D)

/-- By remote path: whether there is a directory after `mkdir`, made by it or there before, and whether
`uploadFileInternal` succeeds. -/
structure Server where
  makesDir : Text → Bool
  uploadsFile : Text → Bool

variable {D : Type}

/-- The remote paths that were visited, in order, and whether all went well; nothing if the call has not returned. -/
abbrev Walk := Option (List Text × Bool)

/-- One entry; `descend` is the recursive call. -/
def uploadEntry (server : Server) (descend : D → Text → Walk) (remotePath : Text) (entry : Text × DirEntry D) : Walk :=
  let childRemote := joinPath remotePath entry.1
  match entry.2.isDir with
  | some sub => descend sub childRemote
  | none => some ([childRemote], server.uploadsFile childRemote)

def uploadEntries (server : Server) (descend : D → Text → Walk) (remotePath : Text) : List (Text × DirEntry D) → Walk
  | [] => some ([], true)
  | entry :: entries =>
    match uploadEntry server descend remotePath entry with
    | none => none
    | some (visited, ok) =>
      if ok then (uploadEntries server descend remotePath entries).map fun rest => (visited ++ rest.1, rest.2)
      else some (visited, false)

def uploadDirectoryRecursive (dirs : LocalDirs D) (server : Server) : Nat → D → Text → Walk
  | 0, _, _ => none
  | depth + 1, dir, remotePath =>
    if ¬ server.makesDir remotePath then some ([remotePath], false)
    else
      (uploadEntries server (uploadDirectoryRecursive dirs server depth) remotePath (dirs.entryInfoList dir)).map
        fun rest => (remotePath :: rest.1, rest.2)

/-- The call returns, having visited finitely many entries. -/
def Returns (dirs : LocalDirs D) (server : Server) (dir : D) (remotePath : Text) : Prop :=
  ∃ depth, (uploadDirectoryRecursive dirs server depth dir remotePath).isSome

/-- Among the entries of a directory is another one, or a link to it. -/
def Leads (dirs : LocalDirs D) (dir sub : D) : Prop :=
  ∃ name info, (name, info) ∈ dirs.entryInfoList dir ∧ info.isDir = some sub

/-! ## More depth changes nothing -/

variable {dirs : LocalDirs D} {server : Server}

theorem uploadEntry_mono {descend descend' : D → Text → Walk}
    (h : ∀ sub path walked, descend sub path = some walked → descend' sub path = some walked) {remotePath : Text}
    {entry : Text × DirEntry D} {walked : List Text × Bool}
    (hwalk : uploadEntry server descend remotePath entry = some walked) :
    uploadEntry server descend' remotePath entry = some walked := by
  unfold uploadEntry at hwalk ⊢
  cases hdir : entry.2.isDir with
  | some sub =>
    rw [hdir] at hwalk
    exact h _ _ _ hwalk
  | none =>
    rw [hdir] at hwalk
    exact hwalk

theorem uploadEntries_mono {descend descend' : D → Text → Walk}
    (h : ∀ sub path walked, descend sub path = some walked → descend' sub path = some walked) {remotePath : Text}
    {entries : List (Text × DirEntry D)} {walked : List Text × Bool}
    (hwalk : uploadEntries server descend remotePath entries = some walked) :
    uploadEntries server descend' remotePath entries = some walked := by
  induction entries generalizing walked with
  | nil => exact hwalk
  | cons entry entries ih =>
    unfold uploadEntries at hwalk ⊢
    cases hentry : uploadEntry server descend remotePath entry with
    | none =>
      rw [hentry] at hwalk
      cases hwalk
    | some visit =>
      rw [hentry] at hwalk
      rw [uploadEntry_mono h hentry]
      obtain ⟨visited, ok⟩ := visit
      cases ok with
      | false => exact hwalk
      | true =>
        obtain ⟨rest, hrest, hwalked⟩ := Option.map_eq_some_iff.mp hwalk
        exact Option.map_eq_some_iff.mpr ⟨rest, ih hrest, hwalked⟩

theorem uploadDirectoryRecursive_succ {depth : Nat} {dir : D} {remotePath : Text} {walked : List Text × Bool}
    (hwalk : uploadDirectoryRecursive dirs server depth dir remotePath = some walked) :
    uploadDirectoryRecursive dirs server (depth + 1) dir remotePath = some walked := by
  induction depth generalizing dir remotePath walked with
  | zero => cases hwalk
  | succ depth ih =>
    unfold uploadDirectoryRecursive at hwalk ⊢
    split
    next hmakes =>
      rw [if_pos hmakes] at hwalk
      exact hwalk
    next hmakes =>
      rw [if_neg hmakes] at hwalk
      obtain ⟨rest, hrest, hwalked⟩ := Option.map_eq_some_iff.mp hwalk
      exact Option.map_eq_some_iff.mpr ⟨rest, uploadEntries_mono (fun _ _ _ h => ih h) hrest, hwalked⟩

theorem uploadDirectoryRecursive_mono {depth depth' : Nat} (hle : depth ≤ depth') {dir : D} {remotePath : Text}
    {walked : List Text × Bool} (hwalk : uploadDirectoryRecursive dirs server depth dir remotePath = some walked) :
    uploadDirectoryRecursive dirs server depth' dir remotePath = some walked := by
  induction hle with
  | refl => exact hwalk
  | step _ ih => exact uploadDirectoryRecursive_succ ih

/-! ## Where every way down ends -/

/-- If the calls return for the directories among them, the loop over the entries returns. -/
theorem entries_return {entries : List (Text × DirEntry D)} {remotePath : Text}
    (h : ∀ entry ∈ entries, ∀ sub, entry.2.isDir = some sub → ∀ path, Returns dirs server sub path) :
    ∃ depth, (uploadEntries server (uploadDirectoryRecursive dirs server depth) remotePath entries).isSome := by
  induction entries with
  | nil => exact ⟨0, rfl⟩
  | cons entry entries ih =>
    obtain ⟨restDepth, hrest⟩ := ih fun e he => h e (.tail _ he)
    obtain ⟨rest, hrest⟩ := Option.isSome_iff_exists.mp hrest
    have hentry : ∃ depth, (uploadEntry server (uploadDirectoryRecursive dirs server depth) remotePath entry).isSome := by
      unfold uploadEntry
      cases hdir : entry.2.isDir with
      | some sub => exact h entry (.head _) sub hdir _
      | none => exact ⟨0, rfl⟩
    obtain ⟨entryDepth, hentry⟩ := hentry
    obtain ⟨⟨visited, ok⟩, hvisit⟩ := Option.isSome_iff_exists.mp hentry
    refine ⟨max entryDepth restDepth, ?_⟩
    have hvisit' := uploadEntry_mono (fun _ _ _ hw => uploadDirectoryRecursive_mono (le_max_left entryDepth restDepth) hw) hvisit
    have hrest' := uploadEntries_mono (fun _ _ _ hw => uploadDirectoryRecursive_mono (le_max_right entryDepth restDepth) hw) hrest
    unfold uploadEntries
    rw [hvisit', hrest']
    cases ok <;> rfl

theorem returns_of_ends {dir : D} (h : Ends (Leads dirs) dir) (server : Server) (remotePath : Text) :
    Returns dirs server dir remotePath := by
  induction h generalizing remotePath with
  | intro dir _ ih =>
    have hentries : ∃ depth, (uploadEntries server (uploadDirectoryRecursive dirs server depth) remotePath
        (dirs.entryInfoList dir)).isSome :=
      entries_return fun entry he sub hsub path => ih sub ⟨entry.1, entry.2, he, hsub⟩ path
    obtain ⟨depth, hdepth⟩ := hentries
    refine ⟨depth + 1, ?_⟩
    unfold uploadDirectoryRecursive
    split
    next => rfl
    next => rw [Option.isSome_map, hdepth]

/-! ## On a server that takes everything -/

def willing : Server := ⟨fun _ => true, fun _ => true⟩

/-- There a loop that returns has been through all its entries. -/
theorem entries_of_willing {descend : D → Text → Walk} (hok : ∀ sub path walked, descend sub path = some walked → walked.2 = true)
    {remotePath : Text} {entries : List (Text × DirEntry D)} {walked : List Text × Bool}
    (hwalk : uploadEntries willing descend remotePath entries = some walked) :
    walked.2 = true ∧ ∀ entry ∈ entries, ∀ sub, entry.2.isDir = some sub → ∃ path, (descend sub path).isSome := by
  induction entries generalizing walked with
  | nil =>
    cases hwalk
    exact ⟨rfl, fun _ he => (nomatch he)⟩
  | cons entry entries ih =>
    unfold uploadEntries at hwalk
    cases hentry : uploadEntry willing descend remotePath entry with
    | none =>
      rw [hentry] at hwalk
      cases hwalk
    | some visit =>
      obtain ⟨visited, ok⟩ := visit
      have htrue : ok = true := by
        unfold uploadEntry at hentry
        cases hdir : entry.2.isDir with
        | some sub =>
          rw [hdir] at hentry
          exact hok _ _ _ hentry
        | none =>
          rw [hdir] at hentry
          cases hentry
          rfl
      subst htrue
      rw [hentry] at hwalk
      obtain ⟨rest, hrest, rfl⟩ := Option.map_eq_some_iff.mp hwalk
      obtain ⟨hrestOk, hrestDirs⟩ := ih hrest
      refine ⟨hrestOk, fun e he sub hsub => ?_⟩
      rcases List.mem_cons.mp he with rfl | he
      · unfold uploadEntry at hentry
        rw [hsub] at hentry
        exact ⟨_, Option.isSome_iff_exists.mpr ⟨_, hentry⟩⟩
      · exact hrestDirs e he sub hsub

theorem willing_ok {depth : Nat} {dir : D} {remotePath : Text} {walked : List Text × Bool}
    (hwalk : uploadDirectoryRecursive dirs willing depth dir remotePath = some walked) : walked.2 = true := by
  induction depth generalizing dir remotePath walked with
  | zero => cases hwalk
  | succ depth ih =>
    unfold uploadDirectoryRecursive at hwalk
    rw [if_neg (by simp [willing])] at hwalk
    obtain ⟨rest, hrest, rfl⟩ := Option.map_eq_some_iff.mp hwalk
    exact (entries_of_willing (fun _ _ _ h => ih h) hrest).1

/-- So a call that returns there has gone down every way. -/
theorem ends_of_willing {depth : Nat} {dir : D} {remotePath : Text}
    (hwalk : (uploadDirectoryRecursive dirs willing depth dir remotePath).isSome) : Ends (Leads dirs) dir := by
  induction depth generalizing dir remotePath with
  | zero => cases hwalk
  | succ depth ih =>
    obtain ⟨walked, hwalk⟩ := Option.isSome_iff_exists.mp hwalk
    unfold uploadDirectoryRecursive at hwalk
    rw [if_neg (by simp [willing])] at hwalk
    obtain ⟨rest, hrest, rfl⟩ := Option.map_eq_some_iff.mp hwalk
    refine Acc.intro _ fun sub hsub => ?_
    obtain ⟨name, info, hmem, hdir⟩ := hsub
    obtain ⟨path, hreturns⟩ := (entries_of_willing (fun _ _ _ h => willing_ok h) hrest).2 _ hmem sub hdir
    exact ih hreturns

/-! ## The claim -/

/-- A folder with a file, and a link to the file. -/
def plainFolder : LocalDirs Unit := ⟨fun _ => [(['a'], .file), (['b'], .linkToFile)]⟩

/-- A folder with a link to itself. -/
def loopedFolder : LocalDirs Unit := ⟨fun _ => [(['a'], .linkToDir ())]⟩

end LvdTerm.Sftp.LinkedUpload
