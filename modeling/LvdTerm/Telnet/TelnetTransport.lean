import Mathlib.Data.List.Basic

/-!
# TelnetTransport

The parser of the incoming bytes, option negotiation and what is sent. `readyReads` are the emissions of
`readyRead`, `written` the writes to the socket, `calls` the calls of the handlers and of `resize`, each in order.
The socket is connected.
-/
namespace LvdTerm.Telnet

def SE : UInt8 := 240
def SB : UInt8 := 250
def WILL : UInt8 := 251
def WONT : UInt8 := 252
def DO : UInt8 := 253
def DONT : UInt8 := 254
def IAC : UInt8 := 255

def OPT_ECHO : UInt8 := 1
def OPT_SGA : UInt8 := 3
def OPT_TTYPE : UInt8 := 24
def OPT_NAWS : UInt8 := 31

inductive ParseState where
  | data
  | iacSeen
  /-- Saw `IAC WILL/WONT/DO/DONT`, waiting for the option byte. -/
  | negotiate
  | subNegData
  | subNegIacSeen
  deriving DecidableEq

inductive Call where
  | handleCommand (command option : UInt8)
  | handleSubnegotiation (payload : List UInt8)
  | resize (cols rows : Int)
  deriving DecidableEq

structure TelnetTransport where
  parseState : ParseState := .data
  pendingCommand : UInt8 := 0
  subNegBuffer : List UInt8 := []
  plainBuffer : List UInt8 := []
  nawsEnabled : Bool := false
  cols : Int := 80
  rows : Int := 24
  readyReads : List (List UInt8) := []
  written : List (List UInt8) := []
  calls : List Call := []
  deriving DecidableEq

/-- Every 0xFF is doubled. -/
def escape (data : List UInt8) : List UInt8 := data.flatMap fun c => if c = IAC then [c, IAC] else [c]

namespace TelnetTransport

def connectToHost (t : TelnetTransport) : TelnetTransport :=
  { t with parseState := .data, subNegBuffer := [], plainBuffer := [], nawsEnabled := false }

/-! ## Sending -/

def socketWrite (data : List UInt8) (t : TelnetTransport) : TelnetTransport := { t with written := t.written ++ [data] }

def write (data : List UInt8) (t : TelnetTransport) : TelnetTransport := t.socketWrite (escape data)

def sendCommand (command option : UInt8) (t : TelnetTransport) : TelnetTransport := t.socketWrite [IAC, command, option]

def subnegotiation (option : UInt8) (payload : List UInt8) : List UInt8 := [IAC, SB, option] ++ escape payload ++ [IAC, SE]

def sendSubnegotiation (option : UInt8) (payload : List UInt8) (t : TelnetTransport) : TelnetTransport :=
  t.socketWrite (subnegotiation option payload)

/-- `(v >> 8) & 0xFF` and `v & 0xFF` -/
def putInt16 (v : Int) : List UInt8 := [UInt8.ofNat (v / 256 % 256).toNat, UInt8.ofNat (v % 256).toNat]

def sendWindowSize (t : TelnetTransport) : TelnetTransport :=
  if t.nawsEnabled then t.sendSubnegotiation OPT_NAWS (putInt16 t.cols ++ putInt16 t.rows) else t

def resize (cols rows : Int) (t : TelnetTransport) : TelnetTransport :=
  { t with calls := t.calls ++ [Call.resize cols rows], cols := cols, rows := rows }.sendWindowSize

/-! ## Negotiation -/

/-- The answer to a command; `WONT` and `DONT` get none. -/
def answer (command option : UInt8) (t : TelnetTransport) : TelnetTransport :=
  if command = WILL then
    if option = OPT_ECHO ∨ option = OPT_SGA then t.sendCommand DO option else t.sendCommand DONT option
  else if command = DO then
    if option = OPT_NAWS then { t.sendCommand WILL option with nawsEnabled := true }.sendWindowSize
    else if option = OPT_TTYPE then t.sendCommand WILL option
    else t.sendCommand WONT option
  else if command = WONT then
    if option = OPT_NAWS then { t with nawsEnabled := false } else t
  else t

def handleCommand (command option : UInt8) (t : TelnetTransport) : TelnetTransport :=
  { t with calls := t.calls ++ [Call.handleCommand command option] }.answer command option

def terminalType : List UInt8 := [120, 116, 101, 114, 109, 45, 50, 53, 54, 99, 111, 108, 111, 114]

/-- `TERMINAL-TYPE SEND` is answered with `IS "xterm-256color"`. -/
def report (payload : List UInt8) (t : TelnetTransport) : TelnetTransport :=
  match payload with
  | option :: send :: _ => if option = OPT_TTYPE ∧ send = 1 then t.sendSubnegotiation OPT_TTYPE (0 :: terminalType) else t
  | _ => t

def handleSubnegotiation (payload : List UInt8) (t : TelnetTransport) : TelnetTransport :=
  { t with calls := t.calls ++ [Call.handleSubnegotiation payload] }.report payload

/-! ## Parsing -/

def receiveByte (t : TelnetTransport) (b : UInt8) : TelnetTransport :=
  match t.parseState with
  | .data => if b = IAC then { t with parseState := .iacSeen } else { t with plainBuffer := t.plainBuffer ++ [b] }
  | .iacSeen =>
    if b = IAC then { t with plainBuffer := t.plainBuffer ++ [IAC], parseState := .data }
    else if b = WILL ∨ b = WONT ∨ b = DO ∨ b = DONT then { t with pendingCommand := b, parseState := .negotiate }
    else if b = SB then { t with subNegBuffer := [], parseState := .subNegData }
    else { t with parseState := .data }
  | .negotiate => { t.handleCommand t.pendingCommand b with parseState := .data }
  | .subNegData =>
    if b = IAC then { t with parseState := .subNegIacSeen } else { t with subNegBuffer := t.subNegBuffer ++ [b] }
  | .subNegIacSeen =>
    if b = SE then { t.handleSubnegotiation t.subNegBuffer with parseState := .data }
    else if b = IAC then { t with subNegBuffer := t.subNegBuffer ++ [IAC], parseState := .subNegData }
    else { t with parseState := .data }

/-- The loop of `processIncoming`. -/
def receive (bytes : List UInt8) (t : TelnetTransport) : TelnetTransport := bytes.foldl receiveByte t

/-- `if (!m_plainBuffer.isEmpty())` -/
def flush (t : TelnetTransport) : TelnetTransport :=
  if t.plainBuffer = [] then t else { t with readyReads := t.readyReads ++ [t.plainBuffer], plainBuffer := [] }

def processIncoming (chunk : List UInt8) (t : TelnetTransport) : TelnetTransport := (t.receive chunk).flush

/-- What arrives at a connected socket, chunk after chunk. -/
def processAll (chunks : List (List UInt8)) (t : TelnetTransport) : TelnetTransport :=
  chunks.foldl (fun t chunk => t.processIncoming chunk) t

end TelnetTransport

end LvdTerm.Telnet
