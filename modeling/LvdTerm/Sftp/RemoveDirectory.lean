import Mathlib.Logic.Function.Basic
import LvdTerm.Lib.Utf8

/-!
# SftpClient: removing a directory

`removeDirectory` and the server it works on. Names are bytes; a listed name becomes text by `QString::fromUtf8` and bytes
again when its path is used. The server follows the links it finds on the way of a path. What becomes of each call is
given by a schedule. The texts of errors are left out.
-/
namespace LvdTerm.Sftp.RemoveDirectory

/-! ## QString -/

def isContinuation (b : UInt8) : Bool := 0x80 ≤ b && b ≤ 0xbf

/-- The character of a UTF-8 sequence, if it is one: not too long, no surrogate, not beyond U+10FFFF. -/
def charOf (leading : Nat) (continuation : List UInt8) (least : Nat) : Option Char :=
  if continuation.all isContinuation then
    let n := continuation.foldl (fun n b => n * 64 + (b.toNat - 0x80)) leading
    if least ≤ n ∧ n.isValidChar then some (Char.ofNat n) else none
  else none

/-- The character at the front, and how many bytes it has besides the first. -/
def firstChar : List UInt8 → Option (Char × Nat)
  | [] => none
  | b :: rest =>
    if b < 0x80 then some (Char.ofNat b.toNat, 0)
    else
      let n := if b < 0xe0 then 1 else if b < 0xf0 then 2 else 3
      let leading := if b < 0xe0 then b.toNat - 0xc0 else if b < 0xf0 then b.toNat - 0xe0 else b.toNat - 0xf0
      let least := if n = 1 then 0x80 else if n = 2 then 0x800 else 0x10000
      if b < 0xc0 ∨ 0xf8 ≤ b ∨ rest.length < n then none else (charOf leading (rest.take n) least).map fun c => (c, n)

/-- A byte that begins no character becomes U+FFFD. -/
def chars : Nat → List UInt8 → List Char
  | _, [] => []
  | skip + 1, _ :: rest => chars skip rest
  | 0, b :: rest =>
    match firstChar (b :: rest) with
    | some (c, more) => c :: chars more rest
    | none => Char.ofNat 0xfffd :: chars 0 rest

/-- `QString::fromUtf8`, which drops a byte order mark at the front. -/
def fromUtf8 (bytes : List UInt8) : List Char :=
  chars 0 (if bytes.take 3 = [0xef, 0xbb, 0xbf] then bytes.drop 3 else bytes)

/-! ## The server -/

abbrev Name := List UInt8

/-- The components of a path from the root; names hold no slash. -/
abbrev Path := List Name

inductive Node where
  | dir
  | file (data : List UInt8)
  | link (target : Path)
  deriving DecidableEq

abbrev Files := Path → Option Node

/-- A finite tree of directories, files and links. -/
structure RemoteTree where
  node : Files
  /-- The order in which a directory is listed. -/
  names : Path → List Name
  listed : ∀ path name, node (path ++ [name]) ≠ none → name ∈ names path
  parent : ∀ path name, node (path ++ [name]) ≠ none → node path = some .dir
  named : ∀ path name, node (path ++ [name]) ≠ none → name ≠ []
  depth : Nat
  shallow : ∀ path, node path ≠ none → path.length ≤ depth

/-- The walk along a path; `through` is where a link leads, and the last component is followed if `last`. An empty
component changes nothing. -/
def walk (files : Files) (last : Bool) (through : Path → Option Path) (here : Path) : Path → Option Path
  | [] => some here
  | name :: rest =>
    if name = [] then walk files last through here rest
    else
      match files (here ++ [name]) with
      | none => none
      | some .dir => walk files last through (here ++ [name]) rest
      | some (.file _) => if rest = [] then some (here ++ [name]) else none
      | some (.link target) => if rest = [] ∧ ¬ last then some (here ++ [name]) else through (target ++ rest)

/-- Where a path leads, with at most so many links on the way. -/
def lead (files : Files) (last : Bool) : Nat → Path → Option Path
  | 0, path => walk files last (fun _ => none) [] path
  | links + 1, path => walk files last (lead files last links) [] path

inductive Outcome where
  | done
  | refused
  /-- It is done, but the answer does not say so. -/
  | lost
  deriving DecidableEq

/-- What the server does, by the number of the call. -/
structure Schedule where
  /-- How many links of a path are followed. -/
  maxLinks : Nat
  outcome : Nat → Outcome
  /-- After how many entries `readdir` fails. -/
  readdirFails : Nat → Option Nat
  /-- An entry is listed without its permissions. -/
  bare : Nat → Name → Bool

structure Server where
  files : Files
  calls : Nat := 0

structure Entry where
  name : Name
  /-- `attrs.flags & LIBSSH2_SFTP_ATTR_PERMISSIONS`, and then `LIBSSH2_SFTP_S_ISDIR`. -/
  isDir : Bool

namespace Server

variable (tree : RemoteTree) (sched : Schedule)

/-- The call is over, and has changed the files if it was done. -/
def answer (files : Files) (possible : Bool) (s : Server) : Server × Bool :=
  match possible, sched.outcome s.calls with
  | true, .done => (⟨files, s.calls + 1⟩, true)
  | true, .lost => (⟨files, s.calls + 1⟩, false)
  | _, _ => ({ s with calls := s.calls + 1 }, false)

/-- `libssh2_sftp_rmdir`, of an empty directory. -/
def rmdir (path : Path) (s : Server) : Server × Bool :=
  match lead s.files false sched.maxLinks path with
  | none => s.answer sched s.files false
  | some place =>
    s.answer sched (Function.update s.files place none)
      (place ≠ [] ∧ s.files place = some .dir ∧ ∀ name ∈ tree.names place, s.files (place ++ [name]) = none)

/-- `libssh2_sftp_unlink`, of a file or a link. -/
def unlink (path : Path) (s : Server) : Server × Bool :=
  match lead s.files false sched.maxLinks path with
  | none => s.answer sched s.files false
  | some place =>
    s.answer sched (Function.update s.files place none) (s.files place ≠ none ∧ s.files place ≠ some .dir)

/-- The entries of a directory that `readdir` gives, `.` and `..` first. -/
def entries (place : Path) (s : Server) : List Entry :=
  let present := (tree.names place).filter fun name => s.files (place ++ [name]) ≠ none
  let all := ⟨[0x2e], true⟩ :: ⟨[0x2e, 0x2e], true⟩ ::
    present.map fun name => ⟨name, !sched.bare s.calls name && s.files (place ++ [name]) = some .dir⟩
  match sched.readdirFails s.calls with
  | none => all
  | some n => all.take n

/-- `libssh2_sftp_opendir`, and `libssh2_sftp_readdir` until it ends or fails. -/
def list (path : Path) (s : Server) : Server × Option (List Entry) :=
  let next : Server := { s with calls := s.calls + 1 }
  match lead s.files true sched.maxLinks path with
  | none => (next, none)
  | some place =>
    if s.files place = some .dir ∧ sched.outcome s.calls = .done then (next, some (s.entries tree sched place)) else (next, none)

end Server

/-! ## SftpClient -/

structure Child where
  name : List Char
  isDirectory : Bool
  deriving DecidableEq

def joinPath (path : Path) (name : List Char) : Path := path ++ [Lib.Utf8.encode name]

/-- The children that are found, without `.` and `..`. -/
def childrenOf (entries : List Entry) : List Child :=
  (entries.map fun e => (⟨fromUtf8 e.name, e.isDir⟩ : Child)).filter fun c => c.name ≠ ['.'] ∧ c.name ≠ ['.', '.']

/-- The server after a call, and what it returned; nothing if it has not. -/
abbrev Returned := Option (Server × Bool)

/-- The loop over the children; `descend` is the recursive call. -/
def removeChildren (sched : Schedule) (descend : Path → Server → Returned) (path : Path) :
    List Child → Server → Returned
  | [], s => some (s, true)
  | child :: children, s =>
    let childPath := joinPath path child.name
    match (if child.isDirectory then descend childPath s else some (s.unlink sched childPath)) with
    | none => none
    | some (s, ok) => if ok then removeChildren sched descend path children s else some (s, false)

def removeRecursively (tree : RemoteTree) (sched : Schedule) : Nat → Path → Server → Returned
  | 0, _, _ => none
  | depth + 1, path, s =>
    match s.list tree sched path with
    | (s, none) => some (s, false)
    | (s, some entries) =>
      match removeChildren sched (removeRecursively tree sched depth) path (childrenOf entries) s with
      | none => none
      | some (s, ok) => if ok then some (s.rmdir tree sched path) else some (s, false)

/-- The flag is which of `operationSucceeded` and `operationFailed` is emitted. -/
def removeDirectory (connected : Bool) (tree : RemoteTree) (sched : Schedule) (depth : Nat) (path : Path) (s : Server) :
    Returned :=
  if ¬ connected then some (s, false)
  else
    let (s, removed) := s.rmdir tree sched path
    if removed then some (s, true) else removeRecursively tree sched depth path s

end LvdTerm.Sftp.RemoveDirectory
