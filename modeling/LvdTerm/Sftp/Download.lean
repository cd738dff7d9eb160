import LvdTerm.Lib.Paths
import Mathlib.Data.List.DropRight

/-!
# SftpClient: downloading a directory

`downloadDirectory` with everything it does to the local file system. What the server and the
local system answer is given beforehand, as a tree: a reply for each directory with its
listing in it. A reply may fail anywhere, so that what a server does that never stops
listing deeper directories is covered by the trees that end at some point of it. Remote paths,
messages and progress signals play no part and are left out.
-/
namespace LvdTerm.Sftp

open Lib.Paths

/-- One read of the remote file: what it returned, and whether the local file took all of it. -/
structure Chunk where
  data : List UInt8
  written : Bool

structure FileReply where
  /-- `libssh2_sftp_open` gives a handle. -/
  remoteHandle : Bool
  localOpens : Bool
  chunks : List Chunk
  /-- The last read returned an error and not the end of the file. -/
  readFails : Bool

mutual

/-- How `mkpath` and `libssh2_sftp_opendir` end for a directory, and what it lists. -/
inductive DirReply where
  | dir (missing made : Nat) (handle : Bool) (children : Listing)

inductive Listing where
  | done
  | file (name : Text) (reply : FileReply) (rest : Listing)
  | dir (name : Text) (reply : DirReply) (rest : Listing)

end

inductive LocalOp where
  | makeDir (path : Text)
  | openTruncate (path : Text)
  | write (path : Text) (data : List UInt8)
  | remove (path : Text)
  deriving DecidableEq

def LocalOp.path : LocalOp → Text
  | .makeDir p | .openTruncate p | .write p _ | .remove p => p

/-- What was done to the local file system, and the `bool` that the function returns. -/
structure Work where
  ops : List LocalOp
  ok : Bool
  deriving DecidableEq

/-- The next piece of work is done only after a success. -/
def Work.andThen (w next : Work) : Work := if w.ok then ⟨w.ops ++ next.ops, next.ok⟩ else w

/-! ## mkpath -/

/-- The parents that `mkpath` would make, the nearest first: the text before each slash that
does not start the path. -/
def parents (path : Text) : List Text :=
  ((path.inits.zip path.tails).filterMap fun (before, after) =>
    if before ≠ [] ∧ after.head? = some '/' then some before else none).reverse

/-- Qt drops the slashes at the end first. -/
def chopSlashes (path : Text) : Text :=
  let chopped := path.rdropWhile (· == '/')
  if chopped = [] then path.take 1 else chopped

def mkpathChain (path : Text) : List Text := chopSlashes path :: parents (chopSlashes path)

/-- `QDir::mkpath`. The system reports `missing` directories, counted from the deepest, and
makes `made` of them, starting with the one highest up. -/
def mkpath (path : Text) (missing made : Nat) : List Text × Bool :=
  if path = [] ∨ (mkpathChain path).length < missing then ([], false)
  else ((((mkpathChain path).take missing).reverse.take made), missing ≤ made)

/-! ## SftpClient -/

def writeChunks (localPath : Text) : List Chunk → Work
  | [] => ⟨[], true⟩
  | c :: cs => Work.andThen ⟨[.write localPath c.data], c.written⟩ (writeChunks localPath cs)

def downloadFileInternal (localPath : Text) (reply : FileReply) : Work :=
  if ¬ reply.remoteHandle then ⟨[], false⟩
  else if ¬ reply.localOpens then ⟨[], false⟩
  else
    let written := writeChunks localPath reply.chunks
    let ok := written.ok && !reply.readFails
    -- no truncated file is left behind
    ⟨.openTruncate localPath :: written.ops ++ (if ok then [] else [.remove localPath]), ok⟩

mutual

def downloadDirectoryRecursive (localPath : Text) : DirReply → Work
  | .dir missing made handle children =>
    let dirs := mkpath localPath missing made
    if ¬ dirs.2 then ⟨dirs.1.map .makeDir, false⟩
    else if ¬ handle then ⟨dirs.1.map .makeDir, false⟩
    else Work.andThen ⟨dirs.1.map .makeDir, true⟩ (downloadChildren localPath children)

def downloadChildren (localPath : Text) : Listing → Work
  | .done => ⟨[], true⟩
  | .file name reply rest =>
    if name = dot ∨ name = dotdot then downloadChildren localPath rest
    else Work.andThen (downloadFileInternal (localPath ++ '/' :: name) reply) (downloadChildren localPath rest)
  | .dir name reply rest =>
    if name = dot ∨ name = dotdot then downloadChildren localPath rest
    else Work.andThen (downloadDirectoryRecursive (localPath ++ '/' :: name) reply)
      (downloadChildren localPath rest)

end

/-- Without a connection nothing is done. -/
def downloadDirectory (connected : Bool) (localPath : Text) (reply : DirReply) : Work :=
  if ¬ connected then ⟨[], false⟩ else downloadDirectoryRecursive localPath reply

end LvdTerm.Sftp
