import LvdTerm.Lib.Runs
import LvdTerm.Ssh.X11Setup

/-!
# X11Forwarder

A channel of the server and a socket of the local display, bridged by `pump`. What libssh2 and the
socket do in a pass is given by `Calls`; next to each connection stands a ledger of the bytes
that went in and came out at both ends. Channels may be opened while libssh2 runs inside `pump`.
-/
namespace LvdTerm.Ssh

open LvdTerm.Core (QByteArray)
open Lib.Runs

/-- How the reading loop ends: `libssh2_channel_read` gives 0 with or without an end of file. -/
inductive ReadEnd where
  | eagain | noData | eof | error
  deriving DecidableEq

inductive WriteResult where
  | accepted (n : Nat)
  | eagain | error
  deriving DecidableEq

/-- The calls of one pass over a connection. -/
structure Calls where
  reads : List QByteArray
  ending : ReadEnd
  /-- `c.socket->isOpen()` -/
  isOpen : Bool
  /-- How much `c.socket->write` takes; nothing if it fails. -/
  socketWrite : Nat
  channelWrites : List WriteResult

/-- A connection, what its socket holds for it, and the ledger. -/
structure Bridge where
  conn : Connection := {}
  incoming : QByteArray := []
  /-- `localClosed(c)` -/
  unconnected : Bool := false
  /-- Read from the channel. -/
  read : QByteArray := []
  /-- Taken by the socket, and how often it was asked to. -/
  handed : QByteArray := []
  writeCalls : Nat := 0
  /-- Sent by the local server. -/
  sent : QByteArray := []
  /-- Taken by the channel. -/
  written : QByteArray := []
  /-- The remote side ended the stream. -/
  eof : Bool := false

/-! ## One pass -/

/-- Remote to local; whether the connection is dead. -/
def readChannel (x : Cookies) : List QByteArray → ReadEnd → Bridge → Bridge × Bool
  | [], ending, b => ({ b with eof := ending == .eof }, ending == .error || ending == .eof)
  | bytes :: reads, ending, b =>
    if b.conn.setupDone then
      readChannel x reads ending { b with
        read := b.read ++ bytes
        conn := { b.conn with toLocal := b.conn.toLocal ++ bytes } }
    else
      match processSetup x { b.conn with setup := b.conn.setup ++ bytes } with
      | none => ({ b with read := b.read ++ bytes, conn := { b.conn with setup := b.conn.setup ++ bytes } }, true)
      | some conn => readChannel x reads ending { b with read := b.read ++ bytes, conn }

def writeSocket (n : Nat) (b : Bridge) : Bridge :=
  if b.conn.toLocal = [] then b
  else { b with
    handed := b.handed ++ b.conn.toLocal.take n
    writeCalls := b.writeCalls + 1
    conn := { b.conn with toLocal := b.conn.toLocal.drop n } }

/-- `c.toRemote.append(c.socket->readAll())` -/
def readSocket (b : Bridge) : Bridge :=
  { b with conn := { b.conn with toRemote := b.conn.toRemote ++ b.incoming }, incoming := [] }

/-- Local to remote; whether the connection is dead. -/
def writeChannel : List WriteResult → Bridge → Bridge × Bool
  | [], b => (b, false)
  | result :: results, b =>
    if b.conn.toRemote = [] then (b, false)
    else
      match result with
      | .eagain => (b, false)
      | .error => (b, true)
      | .accepted n => writeChannel results { b with
          written := b.written ++ b.conn.toRemote.take n
          conn := { b.conn with toRemote := b.conn.toRemote.drop n } }

/-- The body of the loop in `pump`; whether the connection is removed. -/
def pass (x : Cookies) (calls : Calls) (b : Bridge) : Bridge × Bool :=
  let (b, dead) := readChannel x calls.reads calls.ending b
  let closed := b.unconnected
  let b := if !dead && !closed && calls.isOpen then readSocket (writeSocket calls.socketWrite b) else b
  let (b, failed) := if dead then (b, false) else writeChannel calls.channelWrites b
  (b, dead || failed || (closed && b.conn.toRemote.isEmpty))

/-! ## The local display -/

inductive DisplayEvent where
  | sends (bytes : QByteArray)
  | closes

def Bridge.display (b : Bridge) : DisplayEvent → Bridge
  | .sends bytes => if b.unconnected then b else { b with incoming := b.incoming ++ bytes, sent := b.sent ++ bytes }
  | .closes => { b with unconnected := true }

/-! ## All connections -/

structure X11Forwarder where
  connections : List Bridge
  /-- The connections that have been removed. -/
  removed : List Bridge
  /-- `pump` has used its reference to a connection after the list had moved. -/
  undefined : Bool

/-- One round of the loop in `pump`. -/
structure Pass where
  calls : Calls
  /-- The channels adopted by libssh2's calls in this round, and whether their sockets connect. -/
  adopted : List Bool
  /-- Appending them moves the storage of the list. -/
  moves : Bool

/-- `adopt` -/
def adopted (connects : Bool) : Bridge := { unconnected := !connects }

/-- A round of the loop in `pump`, at an index of the list. -/
def visit (x : Cookies) (s : X11Forwarder × Nat) (p : Pass) : X11Forwarder × Nat :=
  match s.1.connections[s.2]? with
  | none => s
  | some b =>
    let undefined := s.1.undefined || (p.moves && !p.adopted.isEmpty)
    let more := p.adopted.map adopted
    if (pass x p.calls b).2 then
      (⟨s.1.connections.eraseIdx s.2 ++ more, s.1.removed ++ [(pass x p.calls b).1], undefined⟩, s.2)
    else (⟨s.1.connections.set s.2 (pass x p.calls b).1 ++ more, s.1.removed, undefined⟩, s.2 + 1)

inductive ForwarderEvent where
  /-- A channel is adopted outside `pump`. -/
  | opened (connects : Bool)
  | display (index : Nat) (event : DisplayEvent)
  /-- `pump`, with what happens in each round. -/
  | pump (passes : List Pass)

def pump (x : Cookies) (passes : List Pass) (s : X11Forwarder) : X11Forwarder := (run (visit x) passes (s, 0)).1

def X11Forwarder.step (x : Cookies) (s : X11Forwarder) : ForwarderEvent → X11Forwarder
  | .opened connects => { s with connections := s.connections ++ [adopted connects] }
  | .display index event => { s with connections := s.connections.modify index (·.display event) }
  | .pump passes => pump x passes s

end LvdTerm.Ssh
