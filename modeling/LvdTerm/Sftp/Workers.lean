import LvdTerm.Sftp.Dock

/-!
# SftpClient behind the dock

Every session has a worker thread, which takes up what it is asked one request after the other and
emits what comes of it. It learns that the server has closed the connection from the next request,
which fails; `disconnected` is what `disconnectFromHost` emits.
-/
namespace LvdTerm.Sftp

open Lib.Paths
open SftpDock (DockEvent)

/-! ## Answers -/

namespace Request

/-- The operation and the path in the signals about it. -/
def operation : Request → Option (String × Text)
  | .connectToHost | .disconnectFromHost => none
  | .listDirectory path => some ("list", path)
  | .downloadFile remotePath _ | .downloadDirectory remotePath _ => some ("download", remotePath)
  | .uploadFile _ remotePath | .uploadDirectory _ remotePath => some ("upload", remotePath)
  | .createFile path => some ("create", path)
  | .makeDirectory path => some ("mkdir", path)
  | .removeFile path | .removeDirectory path => some ("delete", path)
  | .renameEntry oldPath _ => some ("rename", oldPath)

def transfers : Request → Bool
  | .downloadFile .. | .uploadFile .. | .downloadDirectory .. | .uploadDirectory .. => true
  | _ => false

end Request

namespace Signal

/-- The progress of a file. -/
def isTransfer : Signal → Bool
  | .transferStarted .. | .transferProgress .. | .transferFinished .. => true
  | _ => false

/-- The last signal of an operation. Without a usable connection it fails. -/
def ends (usable : Bool) (operation : String) (path : Text) : Signal → Bool
  | .operationFailed o p _ => o = operation ∧ p = path
  | .operationSucceeded o p => usable ∧ operation ≠ "list" ∧ o = operation ∧ p = path
  | .directoryListed p _ => usable ∧ operation = "list" ∧ p = path
  | _ => false

end Signal

/-- What a worker may answer. `sftp` is whether it has an `m_sftp`, `closed` whether the server has closed the connection. -/
def Request.answeredBy (sftp closed : Bool) (request : Request) (signals : List Signal) : Bool :=
  match request.operation with
  | some (operation, path) =>
    match signals.reverse with
    | [] => false
    | last :: before => (last.ends (sftp && !closed) operation path) && before.all Signal.isTransfer && (request.transfers || before.isEmpty)
  | none =>
    if request = .disconnectFromHost then signals = [.disconnected]
    else
      match signals with
      | [.connected _] => !closed
      | [.connectFailed _] => true
      | _ => false

/-! ## The dock and the workers -/

structure Sessions where
  dock : SftpDock
  /-- Each session as often as its worker has taken up a request. -/
  taken : List SessionId
  /-- The sessions whose worker has an `m_sftp`. -/
  sftp : List SessionId
  /-- The sessions whose connection the server has closed. -/
  closed : List SessionId

namespace Sessions

def start : Sessions := ⟨.start, [], [], []⟩

/-- The request a worker is to take up. -/
def next (s : Sessions) (id : SessionId) : Option Request :=
  (s.dock.requests.filterMap fun r => if r.1 = id then some r.2 else none)[s.taken.count id]?

/-- `m_sftp` behind a request. -/
def sftpAfter (id : SessionId) (request : Request) (signals : List Signal) (sftp : List SessionId) : List SessionId :=
  if request = .disconnectFromHost then sftp.filter (· ≠ id)
  else if request = .connectToHost ∧ signals.all (fun signal => signal matches .connected _) then id :: sftp
  else sftp

def emits (id : SessionId) (signals : List Signal) (d : SftpDock) : SftpDock :=
  signals.foldl (fun d signal => d.step (.emitted id signal)) d

def works (id : SessionId) (signals : List Signal) (s : Sessions) : Sessions :=
  match s.next id with
  | none => s
  | some request =>
    if request.answeredBy (id ∈ s.sftp) (id ∈ s.closed) signals then
      { s with
        dock := emits id signals s.dock
        taken := id :: s.taken
        sftp := sftpAfter id request signals s.sftp }
    else s

/-- What happens to the dock by itself: it is the workers that emit, and no button connects or disconnects. -/
def ofDock : DockEvent → Bool
  | .emitted .. | .command .connectToHost | .command .disconnectFromHost => false
  | _ => true

inductive Event where
  | dock (e : DockEvent)
  /-- A worker takes up its next request. -/
  | works (id : SessionId) (signals : List Signal)
  | serverCloses (id : SessionId)

def step (s : Sessions) : Event → Sessions
  | .dock e => if ofDock e then { s with dock := s.dock.step e } else s
  | .works id signals => s.works id signals
  | .serverCloses id => if id < s.dock.opened.length then { s with closed := id :: s.closed } else s

end Sessions

end LvdTerm.Sftp
