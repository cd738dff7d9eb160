import LvdTerm.Vnc.Rects

/-!
# VNC client: a connection

Server messages, the stage machine and the socket's events. `onReadyRead` appends a
chunk and runs `step` until it wants more data; `stepsLeft` bounds the rounds, because
every step that returns `true` uses up a byte or leaves a rectangle.
-/
namespace LvdTerm.Vnc

open Lib

variable {E : Env}

/-! ## Server messages -/

def framebufferUpdate : ClientM E Bool :=
  need 4 do
    let count ← u16 2
    let lastRectMode := decide (count = 0xFFFF)
    -- 0xFFFF: as many as it takes; the 1 is never counted down
    Action.modify fun c =>
      { c with lastRectMode := lastRectMode, rectsLeft := if lastRectMode then 1 else count }
    consume 4
    if count = 0 then
      finishUpdate
      pure true
    else pure true

def setColourMapEntries : ClientM E Bool :=
  need 6 do
    let colours ← u16 4
    let total ← int32 (6 + 6 * colours)
    need total do
      consume total
      pure true

def serverBell : ClientM E Bool := do
  consume 1
  emit .bell
  pure true

def serverCutText : ClientM E Bool :=
  need 8 do
    let length ← u32 4
    if length > kMaxStringLength then failStep "Invalid clipboard message"
    else need (8 + length) do
      let text ← bytes 8 length
      consume (8 + length)
      emit (.clipboardTextReceived text)
      pure true

def serverMessage : ClientM E Bool :=
  need 1 do
    let type ← u8 0
    if type = 0 then framebufferUpdate
    else if type = 1 then setColourMapEntries
    else if type = 2 then serverBell
    else if type = 3 then serverCutText
    else failStep ("Unknown VNC message type " ++ toString type)

def stepRunning : ClientM E Bool := do
  let inRect ← Action.gets fun c => c.inRect
  let rectsLeft ← Action.gets fun c => c.rectsLeft
  if inRect ∨ rectsLeft > 0 then stepRect else serverMessage

/-! ## The stage machine -/

def stepOf : Stage → ClientM E Bool
  | .idle => pure false
  | .version => stepVersion
  | .securityTypes => stepSecurityTypes
  | .authChallenge => stepAuthChallenge
  | .securityResult => stepSecurityResult
  | .securityReason => stepSecurityReason
  | .serverInit => stepServerInit
  | .running => stepRunning

def step : ClientM E Bool := do
  let stage ← Action.gets fun c => c.stage
  stepOf stage

/-- A bound on the steps that can return `true` in a row. -/
def stepsLeft (c : VncClient E) : Nat := 2 * c.buf.length + if c.inRect then 1 else 0

/-- `while (m_stage != Stage::Idle && step()) {}` -/
def stepWhile : Nat → ClientM E Unit
  | 0 => pure ()
  | fuel + 1 => do
    let stage ← Action.gets fun c => c.stage
    if stage = .idle then pure ()
    else
      let more ← step
      if more then stepWhile fuel else pure ()

def appendChunk (chunk : List UInt8) (c : VncClient E) : VncClient E := { c with buf := c.buf ++ chunk }

/-- `m_buf.size()` is read as an `int` from here on. -/
def onReadyRead (chunk : List UInt8) : ClientM E Unit := fun c =>
  let c := appendChunk chunk c
  if c.buf.length < 2 ^ 31 then stepWhile (stepsLeft c + 1) c else .error .intOverflow

/-! ## The socket -/

def startConnection : ClientM E Unit := do
  close
  Action.modify fun c =>
    { c with failedAlready := false, buf := [], stage := .version, socket := true }

def connectToHost (password : String) : ClientM E Unit := do
  Action.modify fun c => { c with password := password, maxMinor := 8 }
  startConnection

/-- Whether hanging up after our version reply means that we should try an older one. -/
def retryOlderProtocol : ClientM E Bool := do
  let c ← Action.gets fun c => c
  if c.stage ≠ .securityTypes ∨ c.buf ≠ [] ∨ c.minor ≤ 3 then pure false
  else
    Action.modify fun c => { c with maxMinor := if c.minor ≥ 8 then 7 else 3 }
    startConnection
    pure true

def onSocketClosed : ClientM E Unit := do
  let stage ← Action.gets fun c => c.stage
  if stage = .idle then pure ()
  else if stage = .running then
    close
    emit .closed
  else
    let retried ← retryOlderProtocol
    if retried then pure () else fail "Connection closed by the server"

/-- `QAbstractSocket::errorOccurred`; `message` is the socket's error string. -/
def onSocketError (remoteHostClosed : Bool) (message : String) : ClientM E Unit := do
  let stage ← Action.gets fun c => c.stage
  if stage = .idle then pure ()
  else if !remoteHostClosed then fail message
  else if stage = .running then pure ()
  else
    let retried ← retryOlderProtocol
    if retried then pure () else fail message

/-! ## Runs -/

inductive SocketEvent where
  | readyRead (chunk : List UInt8)
  | disconnected
  | errorOccurred (remoteHostClosed : Bool) (message : String)
  deriving DecidableEq, Repr

def handle : SocketEvent → ClientM E Unit
  | .readyRead chunk => onReadyRead chunk
  | .disconnected => onSocketClosed
  | .errorOccurred remoteHostClosed message => onSocketError remoteHostClosed message

/-- `close` disconnects the socket's signals, so a closed client is told nothing. -/
def deliver (event : SocketEvent) : ClientM E Unit := do
  let socket ← Action.gets fun c => c.socket
  if socket then handle event else pure ()

def run : List SocketEvent → ClientM E Unit
  | [] => pure ()
  | event :: events => do
    deliver event
    run events

/-- A new client after `connectToHost`. -/
def VncClient.connecting (E : Env) (provider : Option (Option String)) (encodings : List Int)
    (password : String) : VncClient E :=
  { VncClient.new E provider encodings with password := password, stage := .version, socket := true }

theorem connectToHost_new (E : Env) (provider : Option (Option String)) (encodings : List Int)
    (password : String) :
    connectToHost password (VncClient.new E provider encodings) =
      .ok ((), .connecting E provider encodings password) := rfl

end LvdTerm.Vnc
