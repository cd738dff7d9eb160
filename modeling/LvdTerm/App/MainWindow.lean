import LvdTerm.Core.SessionStore
import LvdTerm.Lib.PlaceMarkers

/-!
# MainWindow

How panes get their connections, and what is saved of them. A transport and a factory are given by
what they are built from, a pane by its number. Splitting, moving, closing and renaming panes and
tabs is one event that gives the windows as they are then. The files can always be written.
-/
namespace LvdTerm.App

open LvdTerm.Core
open LvdTerm.Lib.PlaceMarkers (arg)

/-- What a `Transport` is built from. -/
inductive Connection where
  | loopback
  | serial (settings : SerialPortSettings)
  | telnet (host : QString) (port : UInt16)
  | raw (host : QString) (port : UInt16)
  | ssh (settings : SshConnectionSettings)
  | shell (program : QString)
  | vnc (settings : VncConnectionSettings)
  | rdp (settings : RdpConnectionSettings)

structure NewConnectionResult where
  transport : Connection
  title : QString
  recreate : Connection
  autoReconnect : Bool := true
  sshSettings : Option SshConnectionSettings := none
  snapshot : Option ConnectionProfile := none

structure TerminalView where
  transport : Connection
  recreate : Connection
  autoReconnect : Bool
  sshSettings : Option SshConnectionSettings
  sessionSnapshot : Option ConnectionProfile

/-- The same connection once more. -/
def TerminalView.duplicateResult (v : TerminalView) : NewConnectionResult where
  transport := v.recreate
  title := []
  recreate := v.recreate
  autoReconnect := v.autoReconnect
  sshSettings := v.sshSettings
  snapshot := v.sessionSnapshot

/-! ## The SSH credentials -/

/-- What the user types when asked; `none` where the dialog is cancelled. -/
structure Answer where
  username : Option QString
  password : Option QString

/-- Is the password asked for each time? -/
def asksPassword (settings : SshConnectionSettings) : Bool :=
  settings.authMethod = .password && settings.promptForPassword

def resolveUsername (a : Answer) (settings : SshConnectionSettings) : Option SshConnectionSettings :=
  if settings.promptForUsername then a.username.map fun value => { settings with username := value } else some settings

def resolvePassword (a : Answer) (settings : SshConnectionSettings) : Option SshConnectionSettings :=
  if asksPassword settings then a.password.map fun value => { settings with password := value } else some settings

/-- `SshCredentialDialog::resolve` -/
def resolve (a : Answer) (settings : SshConnectionSettings) : Option SshConnectionSettings :=
  (resolveUsername a settings).bind (resolvePassword a)

/-! ## New connections -/

def userAtHost (settings : SshConnectionSettings) : QString := settings.username ++ '@' :: settings.host

/-- `QStringLiteral("%1:%2").arg(host).arg(port)` -/
def hostAndPort (host : QString) (port : UInt16) : QString :=
  arg (Nat.toDigits 10 port.toNat) (arg host "%1:%2".toList)

/-- A host, and a user or the wish to be asked for one. -/
def complete (settings : SshConnectionSettings) : Bool :=
  !settings.host.isEmpty && (!settings.username.isEmpty || settings.promptForUsername)

structure TelnetFields where
  host : QString
  port : UInt16
  rawMode : Bool

def telnetConnection (t : TelnetFields) : Connection := if t.rawMode then .raw t.host t.port else .telnet t.host t.port

/-- `id` is the random one of the new profile. -/
def localResult (id : QUuid) (shell : QString) : NewConnectionResult where
  transport := .shell shell
  title := "Local".toList
  recreate := .shell shell
  autoReconnect := false
  snapshot := some { id, type := .shell, name := "Local".toList, localShell := shell }

def runSerialDialog (id : QUuid) (settings : SerialPortSettings) : Option NewConnectionResult :=
  if settings.portName = [] then none
  else some {
    transport := .serial settings
    title := settings.portName
    recreate := .serial settings
    snapshot := some { id, type := .serial, name := settings.portName, serial := settings } }

def runTelnetDialog (id : QUuid) (t : TelnetFields) : Option NewConnectionResult :=
  if t.host = [] then none
  else some {
    transport := telnetConnection t
    title := hostAndPort t.host t.port
    recreate := telnetConnection t
    snapshot := some {
      id, type := .telnet, name := hostAndPort t.host t.port, telnetHost := t.host, telnetPort := t.port, rawMode := t.rawMode } }

def runSshDialog (a : Answer) (id : QUuid) (settings : SshConnectionSettings) : Option NewConnectionResult :=
  if complete settings then
    match resolve a settings with
    | none => none
    | some settings => some {
        transport := .ssh settings
        title := userAtHost settings
        recreate := .ssh settings
        sshSettings := some settings
        snapshot := some { id, type := .ssh, name := userAtHost settings, ssh := settings } }
  else none

def runVncDialog (id : QUuid) (settings : VncConnectionSettings) : Option NewConnectionResult :=
  if settings.host = [] then none
  else some {
    transport := .vnc settings
    title := hostAndPort settings.host settings.port
    recreate := .vnc settings
    snapshot := some { id, type := .vnc, name := hostAndPort settings.host settings.port, vnc := settings } }

def runRdpDialog (id : QUuid) (settings : RdpConnectionSettings) : Option NewConnectionResult :=
  if settings.host = [] then none
  else some {
    transport := .rdp settings
    title := hostAndPort settings.host settings.port
    recreate := .rdp settings
    snapshot := some { id, type := .rdp, name := hostAndPort settings.host settings.port, rdp := settings } }

/-- A command of the connection menu, with what its dialog returns where that is accepted. -/
inductive NewConnection where
  | loopback
  | localTerminal
  | serial (settings : SerialPortSettings)
  | telnet (fields : TelnetFields)
  | ssh (settings : SshConnectionSettings)
  | vnc (settings : VncConnectionSettings)
  | rdp (settings : RdpConnectionSettings)

def NewConnection.result (a : Answer) (id : QUuid) : NewConnection → Option NewConnectionResult
  | .loopback => some { transport := .loopback, title := "loopback".toList, recreate := .loopback }
  | .localTerminal => some (localResult id [])
  | .serial settings => runSerialDialog id settings
  | .telnet fields => runTelnetDialog id fields
  | .ssh settings => runSshDialog a id settings
  | .vnc settings => runVncDialog id settings
  | .rdp settings => runRdpDialog id settings

/-- The result for a profile that is opened with this connection. -/
def profileResult (profile : ConnectionProfile) (connection : Connection) : NewConnectionResult where
  transport := connection
  title := profile.name
  recreate := connection
  autoReconnect := profile.autoReconnect
  snapshot := some profile

def resultForProfile (a : Answer) (profile : ConnectionProfile) : Option NewConnectionResult :=
  match profile.type with
  | .serial => some (profileResult profile (.serial profile.serial))
  | .telnet => some (profileResult profile (telnetConnection ⟨profile.telnetHost, profile.telnetPort, profile.rawMode⟩))
  | .ssh =>
    match resolve a profile.ssh with
    | none => none
    | some s => some { profileResult profile (.ssh s) with sshSettings := some s }
  | .shell => some { profileResult profile (.shell profile.localShell) with autoReconnect := false }
  | .vnc => some (profileResult profile (.vnc profile.vnc))
  | .rdp => some (profileResult profile (.rdp profile.rdp))

/-! ## The windows -/

inductive Pane where
  | view (number : Nat)
  | picker (number : Nat)
  | welcome
  | splitter (orientation : Orientation) (sizes : List Int) (children : List Pane)

structure Tab where
  title : QString
  page : Pane

structure Window where
  secondary : Bool
  tabs : List Tab
  currentIndex : Int

mutual

/-- A pane takes the place of the picker. -/
def Pane.fill (picker number : Nat) : Pane → Pane
  | .view n => .view n
  | .picker n => if n = picker then .view number else .picker n
  | .welcome => .welcome
  | .splitter orientation sizes children => .splitter orientation sizes (fillAll picker number children)

def fillAll (picker number : Nat) : List Pane → List Pane
  | [] => []
  | p :: ps => p.fill picker number :: fillAll picker number ps

end

def Window.fill (picker number : Nat) (w : Window) : Window :=
  { w with tabs := w.tabs.map fun tab => { tab with page := tab.page.fill picker number } }

/-- The tab whose page is the pane itself. -/
def Window.tabOf (number : Nat) (w : Window) : Option Nat :=
  w.tabs.findIdx? fun tab =>
    match tab.page with
    | .view n => n = number
    | _ => false

def Window.setTabText (i : Nat) (title : QString) (w : Window) : Window :=
  { w with tabs := w.tabs.modify i fun tab => { tab with title := title } }

/-- All windows and both stores. -/
structure MainWindow where
  /-- Every pane there ever was, by its number. -/
  views : List TerminalView
  windows : List Window
  /-- How many connections took an answer. -/
  answered : Nat
  profileStore : ProfileStore
  connectionsJson : ProfileFile
  sessionJson : Option QJsonValue
  /-- Every document that was written. -/
  written : List QJsonObject

/-! ## Placing a pane -/

/-- A new tab, or the place of a picker. -/
inductive Place where
  | tab (window : Nat)
  | picker (number : Nat)

namespace MainWindow

def start (connectionsJson : ProfileFile) (sessionJson : Option QJsonValue) : MainWindow where
  views := []
  windows := []
  answered := 0
  profileStore := ⟨[], []⟩
  connectionsJson := connectionsJson
  sessionJson := sessionJson
  written := []

def makeView (result : NewConnectionResult) (app : MainWindow) : MainWindow :=
  { app with
    views := app.views ++
      [⟨result.transport, result.recreate, result.autoReconnect, result.sshSettings, result.snapshot⟩] }

def addTerminalTab (window : Nat) (result : NewConnectionResult) (app : MainWindow) : MainWindow :=
  { app.makeView result with
    windows := app.windows.modify window fun w =>
      { w with tabs := w.tabs ++ [⟨result.title, .view app.views.length⟩], currentIndex := w.tabs.length } }

def finishSplitWithResult (picker : Nat) (result : NewConnectionResult) (app : MainWindow) : MainWindow :=
  { app.makeView result with windows := app.windows.map (Window.fill picker app.views.length) }

def place (p : Place) (result : Option NewConnectionResult) (app : MainWindow) : MainWindow :=
  match result with
  | none => app
  | some result =>
    match p with
    | .tab window => app.addTerminalTab window result
    | .picker number => app.finishSplitWithResult number result

/-- The answer for this connection was given. -/
def answer (app : MainWindow) : MainWindow := { app with answered := app.answered + 1 }

end MainWindow

/-! ## Changing a pane's settings -/

/-- What the user makes of the settings that the dialog for the type shows; `none` cancels. -/
structure Edit where
  serial : SerialPortSettings → Option SerialPortSettings
  telnet : TelnetFields → Option TelnetFields
  ssh : SshConnectionSettings → Option SshConnectionSettings
  shell : QString → Option QString
  vnc : VncConnectionSettings → Option VncConnectionSettings
  rdp : RdpConnectionSettings → Option RdpConnectionSettings

def editProfile (edit : Edit) (profile : ConnectionProfile) : Option ConnectionProfile :=
  match profile.type with
  | .serial => (edit.serial profile.serial).bind fun s => if s.portName = [] then none else some { profile with serial := s }
  | .telnet =>
    (edit.telnet ⟨profile.telnetHost, profile.telnetPort, profile.rawMode⟩).bind fun t =>
      if t.host = [] then none
      else some { profile with telnetHost := t.host, telnetPort := t.port, rawMode := t.rawMode }
  | .ssh => (edit.ssh profile.ssh).bind fun s => if complete s then some { profile with ssh := s } else none
  | .shell => (edit.shell profile.localShell).map fun shell => { profile with localShell := shell }
  | .vnc => (edit.vnc profile.vnc).bind fun s => if s.host = [] then none else some { profile with vnc := s }
  | .rdp => (edit.rdp profile.rdp).bind fun s => if s.host = [] then none else some { profile with rdp := s }

def autoName (profile : ConnectionProfile) : QString :=
  match profile.type with
  | .serial => profile.serial.portName
  | .telnet => hostAndPort profile.telnetHost profile.telnetPort
  | .ssh => userAtHost profile.ssh
  | .shell => []
  | .vnc => hostAndPort profile.vnc.host profile.vnc.port
  | .rdp => hostAndPort profile.rdp.host profile.rdp.port

/-- Does the pane's tab still have the name it was given? -/
def nameWasAuto (window view : Nat) (oldAutoName : QString) (windows : List Window) : Option Nat := do
  let w ← windows[window]?
  let i ← w.tabOf view
  let tab ← w.tabs[i]?
  if tab.title = oldAutoName then some i else none

namespace MainWindow

/-- `TerminalView::reconfigure` -/
def reconfigure (view : Nat) (result : NewConnectionResult) (app : MainWindow) : MainWindow :=
  { app with
    views := app.views.modify view fun v =>
      { v with
        transport := result.transport
        recreate := result.recreate
        sshSettings := result.sshSettings
        sessionSnapshot := result.snapshot } }

/-- `canRespawn` is asked before the dialogs, and again after them. -/
def changePaneSettings (answers : Nat → Answer) (window view : Nat) (canRespawn canReconfigure : Bool) (edit : Edit)
    (app : MainWindow) : MainWindow :=
  match app.views[view]?.bind (·.sessionSnapshot) with
  | none => app
  | some old =>
    if canRespawn then
      match editProfile edit old with
      | none => app
      | some edited =>
        let renamed := if autoName edited = [] then none else nameWasAuto window view old.name app.windows
        let profile := if renamed.isSome then { edited with name := autoName edited } else edited
        match resultForProfile (answers app.answered) profile with
        | none => app.answer
        | some result =>
          if canReconfigure then
            let app := app.answer.reconfigure view result
            match renamed with
            | none => app
            | some i => { app with windows := app.windows.modify window (Window.setTabText i (autoName edited)) }
          else app.answer
    else app

/-! ## The session -/

mutual

/-- `none` where a page holds something that is not saved. -/
def captureNode (views : List TerminalView) : Pane → Option SessionNode
  | .view n => (views[n]?.bind (·.sessionSnapshot)).map fun profile => .leaf (some profile)
  | .picker _ => none
  | .welcome => none
  | .splitter orientation sizes children => (captureNodes views children).map (.splitter orientation sizes)

def captureNodes (views : List TerminalView) : List Pane → Option (List SessionNode)
  | [] => some []
  | p :: ps =>
    match captureNode views p with
    | none => none
    | some node => (captureNodes views ps).map (node :: ·)

end

def captureTab (views : List TerminalView) (tab : Tab) : Option SessionTab :=
  (captureNode views tab.page).map fun root => ⟨tab.title, root⟩

/-- The first window is the one that saves, and the only one that is not secondary. -/
def captureSession (geometry state : QByteArray) (app : MainWindow) : SessionState where
  windowGeometry := geometry
  windowState := state
  currentTabIndex := (app.windows.head?.map (·.currentIndex)).getD (-1)
  tabs := (app.windows.take 1 ++ (app.windows.drop 1).filter (·.secondary)).flatMap fun w =>
    w.tabs.filterMap (captureTab app.views)

mutual

def buildNode (answers : Nat → Answer) : SessionNode → MainWindow → Option Pane × MainWindow
  | .leaf none, app => (none, app)
  | .leaf (some profile), app =>
    match resultForProfile (answers app.answered) profile with
    | none => (none, app.answer)
    | some result => (some (.view app.views.length), app.answer.makeView result)
  | .splitter orientation sizes children, app =>
    let (panes, app) := buildNodes answers children app
    (if panes.isEmpty then none else some (.splitter orientation sizes panes), app)

def buildNodes (answers : Nat → Answer) : List SessionNode → MainWindow → List Pane × MainWindow
  | [], app => ([], app)
  | node :: nodes, app =>
    let (pane, app) := buildNode answers node app
    let (panes, app) := buildNodes answers nodes app
    (pane.toList ++ panes, app)

end

def buildTabs (answers : Nat → Answer) : List SessionTab → MainWindow → List Tab × MainWindow
  | [], app => ([], app)
  | tab :: tabs, app =>
    let (pane, app) := buildNode answers tab.root app
    let (rest, app) := buildTabs answers tabs app
    ((pane.map fun page => (⟨tab.title, page⟩ : Tab)).toList ++ rest, app)

def restoreSession (answers : Nat → Answer) (state : SessionState) (app : MainWindow) : MainWindow :=
  let (tabs, app) := buildTabs answers state.tabs app
  let index := state.currentTabIndex
  let current := if 0 ≤ index ∧ index < tabs.length then index else if tabs.isEmpty then -1 else 0
  { app with windows := [⟨false, tabs, current⟩] }

variable (pl : Platform)

/-- `MainWindow::closeEvent` of the first window. -/
def saveSession (geometry state : QByteArray) (c : StoreCalls) (app : MainWindow) : MainWindow :=
  let document := (app.captureSession geometry state).save pl c
  { app with sessionJson := some (.object document), written := app.written ++ [document] }

/-- The application starts. -/
def launch (answers : Nat → Answer) (profileCalls sessionCalls : StoreCalls) (app : MainWindow) : MainWindow :=
  let session := SessionState.load pl sessionCalls app.sessionJson
  let app := { app with
    views := []
    windows := [⟨false, [⟨"Welcome".toList, .welcome⟩], 0⟩]
    profileStore := ProfileStore.load pl profileCalls app.connectionsJson ⟨[], []⟩ }
  if session.tabs.isEmpty then app else app.restoreSession answers session

def changeStore (change : StoreChange) (c : StoreCalls) (app : MainWindow) : MainWindow :=
  match app.profileStore.change change with
  | none => app
  | some store =>
    { app with
      profileStore := store
      connectionsJson := store.save pl c
      written := app.written ++ [store.document pl c] }

/-! ## Events -/

inductive Event where
  | launch (profileCalls sessionCalls : StoreCalls)
  | newConnection (id : QUuid) (connection : NewConnection) (place : Place)
  /-- From the tree, or in a picker. -/
  | openProfile (i : Nat) (place : Place)
  | duplicate (existing picker : Nat)
  | changePaneSettings (window view : Nat) (canRespawn canReconfigure : Bool) (edit : Edit)
  /-- The password is asked for again, after the server refused it. -/
  | retried (view : Nat)
  /-- Reconnecting and respawning. -/
  | reconnected (view : Nat)
  | arranged (windows : List Window)
  | changeStore (change : StoreChange) (c : StoreCalls)
  | saveSession (geometry state : QByteArray) (c : StoreCalls)

def retry (a : Answer) (view : Nat) (app : MainWindow) : MainWindow :=
  { app with
    views := app.views.modify view fun v =>
      match v.transport, a.password with
      | .ssh settings, some value => { v with transport := .ssh { settings with password := value } }
      | _, _ => v }

def reconnect (view : Nat) (app : MainWindow) : MainWindow :=
  { app with views := app.views.modify view fun v => { v with transport := v.recreate } }

/-- `duplicateRequested` of the picker. -/
def duplicate (existing picker : Nat) (app : MainWindow) : MainWindow :=
  match app.views[existing]? with
  | none => app
  | some v => app.finishSplitWithResult picker v.duplicateResult

def openProfile (answers : Nat → Answer) (i : Nat) (p : Place) (app : MainWindow) : MainWindow :=
  match app.profileStore.profiles[i]? with
  | none => app
  | some profile => app.answer.place p (resultForProfile (answers app.answered) profile)

def step (answers : Nat → Answer) (app : MainWindow) : Event → MainWindow
  | .launch profileCalls sessionCalls => app.launch pl answers profileCalls sessionCalls
  | .newConnection id connection p => app.answer.place p (connection.result (answers app.answered) id)
  | .openProfile i p => app.openProfile answers i p
  | .duplicate existing picker => app.duplicate existing picker
  | .changePaneSettings window view canRespawn canReconfigure edit =>
    app.changePaneSettings answers window view canRespawn canReconfigure edit
  | .retried view => app.answer.retry (answers app.answered) view
  | .reconnected view => app.reconnect view
  | .arranged windows => { app with windows := windows }
  | .changeStore change c => app.changeStore pl change c
  | .saveSession geometry state c => app.saveSession pl geometry state c

end MainWindow

end LvdTerm.App
