import LvdTerm.Core.Crypto
import LvdTerm.Lib.Runs
import LvdTerm.Lib.WriteQueue
import LvdTerm.Terminal.HexDumpWidget

/-!
# PtyTransport: the write queue

Connection, pending bytes and write notifier of `PtyTransport`. Each call is given with what `::write` returns to it, in
order. A call that has got fewer answers than it needs is still in its last write.
-/
namespace LvdTerm.Pty

open LvdTerm.Core (QByteArray)
open LvdTerm.Terminal (toInt removeFront)
open Lib (Fifo)

/-- What `::write` returns, with `errno`: it takes as much as there is room for. -/
inductive WriteReturn where
  | wrote (room : Nat) (positive : 0 < room)
  | eintr
  | eagain
  /-- Another error. -/
  | error
  deriving DecidableEq, Repr

structure PtyTransport where
  /-- `m_masterFd >= 0` -/
  masterFd : Bool := false
  pending : QByteArray := []
  /-- Whether the notifier is enabled, if there is one. -/
  writeNotifier : Option Bool := none
  /-- The bytes that were given to `write` since the pty was opened. -/
  enqueued : QByteArray := []
  /-- The bytes the pty has taken. -/
  accepted : QByteArray := []
  /-- The last flush stopped at an error. -/
  failed : Bool := false
  deriving DecidableEq, Repr

namespace PtyTransport

/-- `forked` is whether `forkpty` gives a pty. -/
def connectToHost (forked : Bool) (t : PtyTransport) : PtyTransport :=
  if t.masterFd then t
  else if forked then
    { t with masterFd := true, writeNotifier := some false, enqueued := [], accepted := [], failed := false }
  else t

def shutdown (t : PtyTransport) : PtyTransport :=
  if ¬ t.masterFd then t
  else { t with masterFd := false, pending := [], writeNotifier := none }

def setWriteNotifierEnabled (enabled : Bool) (t : PtyTransport) : PtyTransport :=
  { t with writeNotifier := t.writeNotifier.map fun _ => enabled }

/-- A write that was accepted. -/
def wrote (room : Nat) (t : PtyTransport) : PtyTransport :=
  let n := min room t.pending.length
  { t with pending := removeFront t.pending (toInt n), accepted := t.accepted ++ t.pending.take n }

/-- The transport, and whether the loop of `flushPending` is left. -/
def flushLoop (answers : List WriteReturn) (t : PtyTransport) : PtyTransport × Bool :=
  if t.pending.isEmpty then (t.setWriteNotifierEnabled false, true)
  else
    match answers with
    | [] => (t, false)
    | .wrote room _ :: answers => flushLoop answers (t.wrote room)
    | .eintr :: answers => flushLoop answers t
    | .eagain :: _ => (t.setWriteNotifierEnabled true, true)
    | .error :: _ => ({ t.setWriteNotifierEnabled false with failed := true }, true)

def flushPending (answers : List WriteReturn) (t : PtyTransport) : PtyTransport × Bool :=
  flushLoop answers { t with failed := false }

def write (data : QByteArray) (answers : List WriteReturn) (t : PtyTransport) : PtyTransport × Bool :=
  if ¬ t.masterFd then (t, true)
  else flushPending answers { t with pending := t.pending ++ data, enqueued := t.enqueued ++ data }

end PtyTransport

inductive Event where
  | connectToHost (forked : Bool)
  | write (data : QByteArray) (answers : List WriteReturn)
  /-- The pty is writable: `onWritable`. -/
  | writable (answers : List WriteReturn)
  /-- `disconnectFromHost`, or the end found in `onReadable`. -/
  | shutdown

/-- The transport, and whether the last call has returned; only then there is a next one. -/
def step (s : PtyTransport × Bool) (e : Event) : PtyTransport × Bool :=
  if s.2 then
    match e with
    | .connectToHost forked => (s.1.connectToHost forked, true)
    | .write data answers => s.1.write data answers
    | .writable answers => if s.1.writeNotifier = some true then s.1.flushPending answers else s
    | .shutdown => (s.1.shutdown, true)
  else s

def run (events : List Event) : PtyTransport × Bool := Lib.Runs.run step events ({}, true)

end LvdTerm.Pty
