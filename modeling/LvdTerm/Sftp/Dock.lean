import LvdTerm.Core.ConnectionProfile
import LvdTerm.Lib.PlaceMarkers
import LvdTerm.Sftp.BrowserModel

/-!
# SftpDock

The dock shows the files of one connection at a time. Its sessions run on worker threads; what they
emit waits in the event queue of the GUI thread and reaches the dock through the connections that
`attachSession` makes. A session that is left is parked, with its connections cut, or torn down,
with `deleteLater`. Buttons, the path bar and drops are left out.
-/
namespace LvdTerm.Sftp

open Lib.Paths
open LvdTerm.Lib.PlaceMarkers (arg)
open LvdTerm.Core (SshConnectionSettings)

abbrev SessionId := Nat

inductive Signal where
  | connected (homePath : Text)
  | connectFailed (message : String)
  | disconnected
  | directoryListed (path : Text) (entries : List SftpEntry)
  | operationFailed (operation : String) (path : Text) (message : String)
  | operationSucceeded (operation : String) (path : Text)
  | transferStarted (path : Text) (totalBytes : Int)
  | transferProgress (path : Text) (bytesDone totalBytes : Int)
  | transferFinished (path : Text) (ok : Bool)
  deriving DecidableEq

/-- A call of `SftpSession`. -/
inductive Request where
  | connectToHost
  | disconnectFromHost
  | listDirectory (path : Text)
  | downloadFile (remotePath localPath : Text)
  | uploadFile (localPath remotePath : Text)
  | downloadDirectory (remotePath localPath : Text)
  | uploadDirectory (localPath remotePath : Text)
  | createFile (path : Text)
  | makeDirectory (path : Text)
  | removeFile (path : Text)
  | removeDirectory (path : Text)
  | renameEntry (oldPath newPath : Text)
  deriving DecidableEq

/-! ## The key of a connection -/

def connectionKey (settings : SshConnectionSettings) : Text :=
  arg (Nat.toDigits 10 settings.port.toNat) (settings.username ++ '@' :: settings.host ++ [':', '%', '3'])

/-- Whether there is nothing to do for `setActiveConnection`. -/
def sameConnection : Option SshConnectionSettings → Option SshConnectionSettings → Bool
  | none, none => true
  | some s, some t => s.host = t.host ∧ s.port = t.port ∧ s.username = t.username
  | _, _ => false

/-! ## The dock -/

structure Parked where
  session : SessionId
  home : Text
  /-- The sessions the home path came from. -/
  sources : List SessionId

structure SftpDock where
  model : SftpModel
  /-- The root index of the view. -/
  rootIndex : SftpModel.Index
  backStack : List SftpModel.Index
  forwardStack : List SftpModel.Index
  session : Option SessionId
  settings : Option SshConnectionSettings
  parked : List (Text × Parked)
  status : String
  progressVisible : Bool
  progressValue : Int
  /-- The settings of every session there ever was, by its number. -/
  opened : List SshConnectionSettings
  requests : List (SessionId × Request)
  /-- The sessions whose signals reach the slots of the dock. -/
  attached : List SessionId
  /-- The sessions whose `disconnected` makes the dock forget them while they are parked. -/
  watched : List SessionId
  /-- `deleteLater` was called. -/
  dying : List SessionId
  deleted : List SessionId
  /-- What was emitted and is not yet delivered. -/
  queue : List (SessionId × Signal)
  /-- A null `m_session` was dereferenced. -/
  crashed : Bool
  tornDown : List SessionId
  /-- The sessions whose home path or listings the model holds. -/
  sources : List SessionId

namespace SftpDock

def start : SftpDock where
  model := .empty
  rootIndex := none
  backStack := []
  forwardStack := []
  session := none
  settings := none
  parked := []
  status := ""
  progressVisible := false
  progressValue := 0
  opened := []
  requests := []
  attached := []
  watched := []
  dying := []
  deleted := []
  queue := []
  crashed := false
  tornDown := []
  sources := []

/-- The root index, unless its node is gone. -/
def currentIndex (d : SftpDock) : SftpModel.Index := d.rootIndex.filter fun number => d.model.holds number

/-- `m_session->request(..)` -/
def call (request : Request) (d : SftpDock) : SftpDock :=
  match d.session with
  | none => { d with crashed := true }
  | some id => { d with requests := d.requests ++ [(id, request)] }

/-! ## Sessions -/

/-- `disconnectFromHost` and `deleteLater` -/
def dropSession (id : SessionId) (d : SftpDock) : SftpDock :=
  { d with requests := d.requests ++ [(id, .disconnectFromHost)], dying := id :: d.dying }

/-- The view is reset with the model. -/
def setRoot (path : Text) (d : SftpDock) : SftpDock := { d with model := d.model.setRoot path, rootIndex := none }

def clearHistory (d : SftpDock) : SftpDock := { d with backStack := [], forwardStack := [] }

def teardownSession (d : SftpDock) : SftpDock :=
  match d.session with
  | none => d.clearHistory
  | some id => { d.dropSession id with session := none, tornDown := id :: d.tornDown }.clearHistory

/-- `m_session->disconnect(this)` -/
def disconnect (id : SessionId) (d : SftpDock) : SftpDock :=
  { d with attached := d.attached.filter (· ≠ id), watched := d.watched.filter (· ≠ id) }

/-- `m_parked.take(key)` -/
def takeParked (key : Text) (d : SftpDock) : SftpDock := { d with parked := d.parked.filter fun e => e.1 ≠ key }

/-- The session that is parked under the key already is replaced. -/
def replaceParked (key : Text) (id : SessionId) (d : SftpDock) : SftpDock :=
  match d.parked.lookup key with
  | none => d
  | some old => if old.session ≠ id then (d.takeParked key).dropSession old.session else d.takeParked key

def kMaxParked : Nat := 6

/-- `first` is where the hash begins. -/
def makeRoom (first : Nat) (d : SftpDock) : SftpDock :=
  if d.parked.length ≥ kMaxParked then
    match d.parked[first % d.parked.length]? with
    | none => d
    | some e => { d.dropSession e.2.session with parked := d.parked.eraseIdx (first % d.parked.length) }
  else d

def parkSession (first : Nat) (d : SftpDock) : SftpDock :=
  match d.session, d.settings with
  | some id, some settings =>
    if d.model.rootPath ≠ [] then
      let key := connectionKey settings
      let d := ((d.disconnect id).replaceParked key id).makeRoom first
      { d with
        parked := (key, ⟨id, d.model.rootPath, d.sources⟩) :: d.parked
        watched := id :: d.watched
        session := none }.clearHistory
    else d.teardownSession
  | _, _ => d.teardownSession

def attachSession (id : SessionId) (d : SftpDock) : SftpDock := { d with attached := id :: d.attached }

def keepOnly (inUse : List SshConnectionSettings) (d : SftpDock) : SftpDock :=
  let keys := inUse.map connectionKey
  let gone := d.parked.filter fun e => !keys.contains e.1
  { gone.foldl (fun d e => d.dropSession e.2.session) d with parked := d.parked.filter fun e => keys.contains e.1 }

/-- A parked session that drops is forgotten. -/
def parkedDisconnected (id : SessionId) (d : SftpDock) : SftpDock :=
  if d.parked.any fun e => e.2.session = id then
    { d with parked := d.parked.eraseP fun e => e.2.session = id, dying := id :: d.dying }
  else d

/-! ## Browsing -/

/-- `navigating` is `m_navigatingHistory`. -/
def enterDirectory (navigating : Bool) (dir : SftpModel.Index) (d : SftpDock) : SftpDock :=
  let d := if ¬ navigating ∧ dir ≠ d.currentIndex then
      { d with backStack := d.backStack ++ [d.currentIndex], forwardStack := [] }
    else d
  let d := { d with rootIndex := dir }
  if d.model.isLoaded dir then d
  else
    let path := d.model.pathForIndex dir
    { d with model := d.model.markLoading path }.call (.listDirectory path)

def goUp (d : SftpDock) : SftpDock :=
  if d.currentIndex.isSome then d.enterDirectory false (d.model.parent d.currentIndex) else d

def goBack (d : SftpDock) : SftpDock :=
  match d.session, d.backStack.getLast? with
  | some _, some target =>
    { d with forwardStack := d.forwardStack ++ [d.currentIndex], backStack := d.backStack.dropLast }.enterDirectory true
      (target.filter fun number => d.model.holds number)
  | _, _ => d

def goForward (d : SftpDock) : SftpDock :=
  match d.session, d.forwardStack.getLast? with
  | some _, some target =>
    { d with backStack := d.backStack ++ [d.currentIndex], forwardStack := d.forwardStack.dropLast }.enterDirectory true
      (target.filter fun number => d.model.holds number)
  | _, _ => d

def navigateToPath (path : Text) (d : SftpDock) : SftpDock :=
  if d.session = none then d
  else if path = d.model.rootPath then d.enterDirectory false none
  else
    match d.model.indexForPath path with
    | some number => d.enterDirectory false (some number)
    | none => (d.clearHistory.setRoot path).enterDirectory false none

/-- Only a folder is entered. -/
def doubleClicked (number : Nat) (d : SftpDock) : SftpDock :=
  if d.model.holds number ∧ number ≠ d.model.root.info.number ∧ d.model.isDirectory (some number) then
    d.enterDirectory false (some number)
  else d

/-- The toolbar's commands and drops, which do nothing without a session. -/
def command (request : Request) (d : SftpDock) : SftpDock := if d.session = none then d else d.call request

def refresh (d : SftpDock) : SftpDock :=
  let path := d.model.pathForIndex d.currentIndex
  if d.session = none then d else { d with model := d.model.markLoading path }.call (.listDirectory path)

def newFolder (name : Text) (d : SftpDock) : SftpDock :=
  let parentDir := d.model.pathForIndex d.currentIndex
  if d.session = none then d
  else
    { d with model := d.model.addPlaceholderDirectory parentDir name }.call (.makeDirectory (joinRemotePath parentDir name))

/-! ## Slots -/

def setStatus (status : String) (d : SftpDock) : SftpDock := { d with status := status }

def parentPath (path : Text) : Text :=
  let up := (path.reverse.dropWhile (· ≠ '/')).tail.reverse
  if up = [] then ['/'] else up

/-- `sources` is where the path comes from. -/
def onConnected (sources : List SessionId) (homePath : Text) (d : SftpDock) : SftpDock :=
  (({ d with sources := sources }.setRoot homePath).setStatus ("Connected: " ++ String.ofList homePath)).enterDirectory
    false none

def onOperationFailed (operation : String) (path : Text) (message : String) (d : SftpDock) : SftpDock :=
  let d := { d with model := d.model.markLoadFailed path }
  if operation = "create" then
    d.setStatus ("Could not create " ++ String.ofList path ++ ": " ++ message ++ " (a file with that name may already exist)")
  else d.setStatus (operation ++ " failed for " ++ String.ofList path ++ ": " ++ message)

def onOperationSucceeded (operation : String) (path : Text) (d : SftpDock) : SftpDock :=
  let d := d.setStatus (operation ++ " OK: " ++ String.ofList path)
  if operation = "delete" ∨ operation = "rename" then { d with model := d.model.removeEntry path }
  else if operation = "mkdir" ∨ operation = "upload" ∨ operation = "create" then
    { d with model := d.model.markLoading (parentPath path) }.call (.listDirectory (parentPath path))
  else d

/-- The slot a signal is connected to. -/
def slot (id : SessionId) (d : SftpDock) : Signal → SftpDock
  | .connected homePath => d.onConnected [id] homePath
  | .connectFailed message => d.setStatus ("Connection failed: " ++ message)
  | .disconnected => d
  | .directoryListed path entries =>
    { d with model := d.model.applyDirectoryListing path entries, sources := id :: d.sources }
  | .operationFailed operation path message => d.onOperationFailed operation path message
  | .operationSucceeded operation path => d.onOperationSucceeded operation path
  | .transferStarted path _ =>
    { d with progressVisible := true, progressValue := 0 }.setStatus ("Transferring " ++ String.ofList path ++ "...")
  | .transferProgress _ bytesDone totalBytes =>
    if totalBytes > 0 then { d with progressValue := (bytesDone * 100).tdiv totalBytes } else d
  | .transferFinished path ok =>
    { d with progressVisible := false }.setStatus ((if ok then "Done: " else "Failed: ") ++ String.ofList path)

/-! ## Another connection -/

def setActiveConnection (settings : Option SshConnectionSettings) (first : Nat) (d : SftpDock) : SftpDock :=
  if sameConnection settings d.settings then d
  else
    let d := { d.parkSession first with settings := settings }
    let d := { d with sources := [] }.setRoot []
    match settings with
    | none => d.setStatus "Not an SSH connection"
    | some s =>
      let d := d.setStatus "Connecting..."
      match d.parked.lookup (connectionKey s) with
      | some p =>
        ({ d.takeParked (connectionKey s) with session := some p.session }.attachSession p.session).onConnected p.sources p.home
      | none =>
        ({ d with opened := d.opened ++ [s], session := some d.opened.length }.attachSession d.opened.length).call .connectToHost

/-! ## Events -/

inductive DockEvent where
  | setActiveConnection (settings : Option SshConnectionSettings) (first : Nat)
  | keepOnly (inUse : List SshConnectionSettings)
  /-- A worker thread emits a signal. -/
  | emitted (id : SessionId) (signal : Signal)
  /-- One of the waiting signals is delivered. -/
  | delivered (n : Nat)
  /-- The deferred deletion of a session. -/
  | destroyed (id : SessionId)
  | doubleClicked (number : Nat)
  | goUp
  | goBack
  | goForward
  | navigateToPath (path : Text)
  | refresh
  | newFolder (name : Text)
  | command (request : Request)

def deliver (n : Nat) (d : SftpDock) : SftpDock :=
  match d.queue[n]? with
  | none => d
  | some (id, signal) =>
    let d := { d with queue := d.queue.eraseIdx n }
    if signal = .disconnected then if id ∈ d.watched then d.parkedDisconnected id else d
    else if id ∈ d.attached then d.slot id signal
    else d

def destroy (id : SessionId) (d : SftpDock) : SftpDock :=
  if id ∈ d.dying then
    { d.disconnect id with deleted := id :: d.deleted, queue := d.queue.filter fun e => e.1 ≠ id }
  else d

def step (d : SftpDock) : DockEvent → SftpDock
  | .setActiveConnection settings first => d.setActiveConnection settings first
  | .keepOnly inUse => d.keepOnly inUse
  | .emitted id signal =>
    if id < d.opened.length ∧ id ∉ d.deleted then { d with queue := d.queue ++ [(id, signal)] } else d
  | .delivered n => d.deliver n
  | .destroyed id => d.destroy id
  | .doubleClicked number => d.doubleClicked number
  | .goUp => d.goUp
  | .goBack => d.goBack
  | .goForward => d.goForward
  | .navigateToPath path => d.navigateToPath path
  | .refresh => d.refresh
  | .newFolder name => d.newFolder name
  | .command request => d.command request

end SftpDock

end LvdTerm.Sftp
