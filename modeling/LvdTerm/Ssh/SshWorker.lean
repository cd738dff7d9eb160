import LvdTerm.Lib.PendingSlot
import LvdTerm.Lib.Runs

/-!
# SshWorker: who sends on the session

The calls of `SshWorker` and `X11Forwarder` that may send a packet, in the order the code makes
them, and libssh2's functions as far as they send. Buffers are their lengths. What the calls find
is given with each event: how the socket takes a packet, whether a channel has room, what is read.
A channel keeps the packet it has composed until it is sent.
-/
namespace LvdTerm.Ssh

open Lib.PendingSlot Lib.Runs

inductive Channel where
  | shell
  | x11 (id : Nat)
  deriving DecidableEq

/-- A packet, with the arguments it is made from. -/
inductive Packet where
  | data (channel : Channel)
  | adjust (channel : Channel)
  | windowChange (cols rows : Int)
  | keepalive (address : Nat)
  | eof (channel : Channel) (address : Nat)
  | close (channel : Channel)
  deriving DecidableEq

/-- The data pointer and length that `send_existing` compares: a field of the channel, or an array
on the stack. -/
inductive SendKey where
  | writePacket (channel : Channel)
  | adjustAdjust (channel : Channel)
  | reqPTYPacket
  | stack (address length : Nat)
  | closePacket (channel : Channel)
  deriving DecidableEq

def Packet.key : Packet → SendKey
  | .data channel => .writePacket channel
  | .adjust channel => .adjustAdjust channel
  | .windowChange _ _ => .reqPTYPacket
  | .keepalive address => .stack address 27
  | .eof _ address => .stack address 5
  | .close channel => .closePacket channel

/-! ## libssh2 -/

/-- The packets that are composed: `write_state` and `adjust_state` of the channels. -/
structure Composed where
  writing : List Channel := []
  adjusting : List Channel := []

inductive ReadOutcome where
  /-- Some bytes; `refused` is what `processSetup` makes of them on an X11 channel. -/
  | data (refused : Bool)
  | eagain | noData | eof | error
  deriving DecidableEq

structure ReadCall where
  /-- How the window adjustment is taken, if the window has become too narrow. -/
  adjust : Option Taken
  outcome : ReadOutcome

/-- `libssh2_channel_read` -/
def channelRead (channel : Channel) (call : ReadCall) (c : Composed) : Prog Packet (ReadOutcome × Composed) :=
  if channel ∈ c.adjusting ∨ call.adjust.isSome then do
    match ← Prog.call (.adjust channel) (call.adjust.getD .part) with
    | .ok => pure (call.outcome, { c with adjusting := c.adjusting.filter (· ≠ channel) })
    | .eagain => pure (.eagain, { c with adjusting := channel :: c.adjusting })
    | .error => pure (.error, { c with adjusting := channel :: c.adjusting })
  else pure (call.outcome, c)

inductive WriteCall where
  /-- The remote window is closed: `EAGAIN`, and nothing to send. -/
  | noRoom
  /-- Reading what has come in fails. -/
  | drainFails
  | sends (taken : Taken) (length : Nat)

inductive WriteOutcome where
  | wrote (length : Nat)
  | eagain | error

def WriteCall.taken : WriteCall → Taken
  | .sends taken _ => taken
  | _ => .part

def WriteCall.length : WriteCall → Nat
  | .sends _ length => length
  | _ => 0

/-- `libssh2_channel_write` -/
def channelWrite (channel : Channel) (call : WriteCall) (c : Composed) : Prog Packet (WriteOutcome × Composed) :=
  let send : Prog Packet (WriteOutcome × Composed) := do
    match ← Prog.call (.data channel) call.taken with
    | .ok => pure (.wrote call.length, { c with writing := c.writing.filter (· ≠ channel) })
    | .eagain => pure (.eagain, { c with writing := channel :: c.writing })
    | .error => pure (.error, { c with writing := c.writing.filter (· ≠ channel) })
  if channel ∈ c.writing then send
  else
    match call with
    | .noRoom => pure (.eagain, c)
    | .drainFails => pure (.error, c)
    | .sends _ _ => send

structure FreeCall where
  /-- `socket_state` -/
  connected : Bool
  /-- The array of `channel_send_eof`. -/
  address : Nat
  eof : Taken
  close : Taken

/-- `libssh2_channel_free` of a channel that is open. -/
def channelFree (channel : Channel) (call : FreeCall) : Prog Packet Unit :=
  if call.connected then do
    match ← Prog.call (.eof channel call.address) call.eof with
    | .eagain => pure ()
    | _ =>
      let _ ← Prog.call (.close channel) call.close
      pure ()
  else pure ()

/-! ## The worker -/

/-- A connection of the forwarder, and how much waits for its channel. -/
structure X11Connection where
  channel : Nat
  toRemote : Nat

structure SshWorker where
  /-- `m_stage == Stage::Connected` -/
  connected : Bool := true
  pendingWrite : Nat := 0
  connections : List X11Connection := []
  composed : Composed := {}

/-- `pumpWrites`; the worker is torn down after an error. -/
def pumpWrites : List WriteCall → SshWorker → Prog Packet SshWorker
  | [], w => pure w
  | call :: calls, w =>
    if w.pendingWrite = 0 then pure w
    else do
      match ← channelWrite .shell call w.composed with
      | (.eagain, c) => pure { w with composed := c }
      | (.error, c) => pure { w with composed := c, connected := false }
      | (.wrote n, c) => pumpWrites calls { w with composed := c, pendingWrite := w.pendingWrite - n }

/-- The attempts of `requestResize`. -/
def resizeAttempts (cols rows : Int) (taken : Nat → Taken) : Nat → Nat → Prog Packet Unit
  | 0, _ => pure ()
  | n + 1, i => do
    match ← Prog.call (.windowChange cols rows) (taken i) with
    | .eagain => resizeAttempts cols rows taken n (i + 1)
    | _ => pure ()

/-- The reading loop of `pump` and of `onReadActivity`; whether the channel is at its end. -/
def readLoop (channel : Channel) : List ReadCall → Composed → Prog Packet (Bool × Composed)
  | [], c => pure (false, c)
  | call :: calls, c => do
    match ← channelRead channel call c with
    | (.data refused, c) => if refused ∧ channel ≠ .shell then pure (true, c) else readLoop channel calls c
    | (.eagain, c) => pure (false, c)
    | (.noData, c) => pure (false, c)
    | (.eof, c) => pure (true, c)
    | (.error, c) => pure (true, c)

/-- The writing loop of `pump`: whether a write has failed, and how much is left. -/
def writeLoop (channel : Channel) : List WriteCall → Nat → Composed → Prog Packet ((Bool × Nat) × Composed)
  | [], n, c => pure ((false, n), c)
  | call :: calls, n, c =>
    if n = 0 then pure ((false, 0), c)
    else do
      match ← channelWrite channel call c with
      | (.eagain, c) => pure ((false, n), c)
      | (.error, c) => pure ((true, n), c)
      | (.wrote k, c) => writeLoop channel calls (n - k) c

structure PassCalls where
  reads : List ReadCall
  /-- `localClosed(c)` -/
  closed : Bool
  /-- How much the local socket has to read, if it is open. -/
  fromLocal : Nat
  writes : List WriteCall
  free : FreeCall
  /-- The channels that the server opens meanwhile. -/
  opened : List Nat

/-- A round of the loop in `pump`, at an index of the list. -/
def pumpRound (calls : PassCalls) (s : SshWorker × Nat) : Prog Packet (SshWorker × Nat) :=
  match s.1.connections[s.2]? with
  | none => pure s
  | some connection => do
    let channel := Channel.x11 connection.channel
    let more := calls.opened.map fun id => X11Connection.mk id 0
    let (dead, c) ← readLoop channel calls.reads s.1.composed
    let toRemote := if dead || calls.closed then connection.toRemote else connection.toRemote + calls.fromLocal
    let ((failed, left), c) ← if dead then pure ((false, toRemote), c) else writeLoop channel calls.writes toRemote c
    if dead || failed || (calls.closed && left == 0) then do
      channelFree channel calls.free
      pure ({ s.1 with connections := s.1.connections.eraseIdx s.2 ++ more, composed := c }, s.2)
    else
      pure ({ s.1 with connections := s.1.connections.set s.2 ⟨connection.channel, left⟩ ++ more, composed := c }, s.2 + 1)

/-- The rounds of `X11Forwarder::pump`. -/
def pumpRounds : List PassCalls → SshWorker × Nat → Prog Packet SshWorker
  | [], s => pure s.1
  | calls :: rest, s => do
    let s ← pumpRound calls s
    pumpRounds rest s

inductive WorkerEvent where
  | enqueueWrite (size : Nat) (writes : List WriteCall)
  /-- The socket is writable, and the notifier enabled. -/
  | writeActivity (writes : List WriteCall)
  | requestResize (cols rows : Int) (taken : Nat → Taken)
  /-- `due`: the interval since the last keepalive is over. -/
  | keepaliveTimer (due : Bool) (address : Nat) (taken : Taken)
  /-- The forwarder's poll timer or socket. -/
  | pump (rounds : List PassCalls)
  | readActivity (rounds : List PassCalls) (reads : List ReadCall)
  /-- The server opens a channel. -/
  | channelOpen (channel : Nat)

/-- What the worker does; nothing once it is torn down. -/
def SshWorker.handle (w : SshWorker) (event : WorkerEvent) : Prog Packet SshWorker :=
  if w.connected then
    match event with
    | .enqueueWrite size writes => pumpWrites writes { w with pendingWrite := w.pendingWrite + size }
    | .writeActivity writes => pumpWrites writes w
    | .requestResize cols rows taken => do
      resizeAttempts cols rows taken 20 0
      pure w
    | .keepaliveTimer due address taken => do
      if due then
        let _ ← Prog.call (.keepalive address) taken
      pure w
    | .pump rounds => pumpRounds rounds (w, 0)
    | .readActivity rounds reads => do
      let w ← pumpRounds rounds (w, 0)
      let (ended, c) ← readLoop .shell reads w.composed
      pure { w with composed := c, connected := !ended }
    | .channelOpen channel => pure { w with connections := w.connections ++ [⟨channel, 0⟩] }
  else pure w

end LvdTerm.Ssh
