import LvdTerm.Sftp.Disk

/-!
# SftpClient: single files

`uploadFile`, and `downloadFile` beside it. Both read a source in chunks and write them into a
destination that is emptied first; `Work.intoFile` is what the two have in common. Messages
and progress signals are left out.
-/
namespace LvdTerm.Sftp

open Lib.Paths

/-! ## Uploading -/

/-- One read of the local file. For what it returned, `accepted` are the sizes the calls of
`libssh2_sftp_write` report; if they do not cover it the next call fails, with `landed` bytes of
its data on the server. -/
inductive UploadChunk where
  | readFails
  | read (data : List UInt8) (accepted : List Nat) (landed : Nat)

structure UploadReply where
  localOpens : Bool
  /-- `libssh2_sftp_open` gives a handle. -/
  remoteHandle : Bool
  chunks : List UploadChunk

/-- The loop around `libssh2_sftp_write`. -/
def writeAll (remotePath : Text) (landed : Nat) (data : List UInt8) : List Nat → Work
  | [] => if data = [] then ⟨[], true⟩ else ⟨[.write remotePath (data.take landed)], false⟩
  | n :: accepted =>
    if data = [] then ⟨[], true⟩
    else Work.andThen ⟨[.write remotePath (data.take n)], true⟩ (writeAll remotePath landed (data.drop n) accepted)

def uploadChunks (remotePath : Text) : List UploadChunk → Work
  | [] => ⟨[], true⟩
  | .readFails :: _ => ⟨[], false⟩
  | .read data accepted landed :: chunks =>
    Work.andThen (writeAll remotePath landed data accepted) (uploadChunks remotePath chunks)

def uploadFileInternal (remotePath : Text) (reply : UploadReply) : Work :=
  if ¬ reply.localOpens then ⟨[], false⟩
  else if ¬ reply.remoteHandle then ⟨[], false⟩
  else
    let written := uploadChunks remotePath reply.chunks
    -- no partial file is left behind
    ⟨.openTruncate remotePath :: written.ops ++ (if written.ok then [] else [.remove remotePath]), written.ok⟩

/-- `ok` is which of `operationSucceeded` and `operationFailed` is emitted. -/
def uploadFile (connected : Bool) (remotePath : Text) (reply : UploadReply) : Work :=
  if ¬ connected then ⟨[], false⟩ else uploadFileInternal remotePath reply

def downloadFile (connected : Bool) (localPath : Text) (reply : FileReply) : Work :=
  if ¬ connected then ⟨[], false⟩ else downloadFileInternal localPath reply

end LvdTerm.Sftp
