import Mathlib.Algebra.Order.Ring.Nat
import LvdTerm.Lib.Runs

/-!
# TerminalView: automatic reconnection

The part of `TerminalView` that answers state changes of its transport and its two timers:
counting, the give-up flag, and the single-shot timer behind the next attempt. The overlay
that shows all this is left out.
-/
namespace LvdTerm.Terminal

/-! ## The policy -/

namespace ReconnectPolicy

def kMaxAttempts : Nat := 6

/-- 1, 2, 4, 8, 16, 30 for `attempt` = 1..6. -/
def delaySecondsForAttempt (attempt : Nat) : Nat :=
  if attempt = 0 then 1
  else
    let uncapped := 2 ^ (attempt - 1)
    if uncapped > 30 then 30 else uncapped

end ReconnectPolicy

open ReconnectPolicy

/-! ## The view -/

/-- `Transport::State` -/
inductive TransportState where
  | disconnected | connecting | connected | error
  deriving DecidableEq, Repr

structure TerminalView where
  /-- `m_transport->state()` -/
  transport : TransportState
  autoReconnect : Bool
  attempt : Nat
  secondsRemaining : Int
  gaveUp : Bool
  /-- The interval a timer was started with, while it is active; in milliseconds. -/
  reconnectTimer : Option Nat
  countdownTimer : Option Nat
  deriving DecidableEq, Repr

/-- A new view; its transport has not been told to connect yet. -/
def TerminalView.opened : TerminalView where
  transport := .disconnected
  autoReconnect := true
  attempt := 0
  secondsRemaining := 0
  gaveUp := false
  reconnectTimer := none
  countdownTimer := none

def scheduleReconnect (v : TerminalView) : TerminalView :=
  if v.attempt ≥ kMaxAttempts then { v with gaveUp := true }
  else
    let attempt := v.attempt + 1
    let secondsRemaining := delaySecondsForAttempt attempt
    { v with attempt := attempt, secondsRemaining := secondsRemaining, countdownTimer := some 1000,
             reconnectTimer := some (secondsRemaining * 1000) }

def onStateChanged (state : TransportState) (v : TerminalView) : TerminalView :=
  if state = .connected then { v with attempt := 0, gaveUp := false }
  else if state = .disconnected ∨ state = .error then
    if v.autoReconnect then
      if !v.gaveUp then scheduleReconnect v else v
    else v
  else v

/-- The view once its transport is in another state. -/
def TerminalView.at (v : TerminalView) (state : TransportState) : TerminalView := { v with transport := state }

/-- `Transport::setState`: only a change is reported. -/
def setState (state : TransportState) (v : TerminalView) : TerminalView :=
  if v.transport ≠ state then onStateChanged state (v.at state) else v

/-- `replaceTransport(m_recreate())` puts a new transport in place of the old one; what its
`connectToHost` reports comes as events. -/
def doReconnectNow (v : TerminalView) : TerminalView :=
  if v.transport = .connecting then v
  else
    { v with countdownTimer := none, reconnectTimer := none, gaveUp := false, attempt := 0,
             transport := .disconnected }

def tickCountdown (v : TerminalView) : TerminalView :=
  let secondsRemaining := v.secondsRemaining - 1
  if secondsRemaining ≤ 0 then { v with secondsRemaining := secondsRemaining, countdownTimer := none }
  else { v with secondsRemaining := secondsRemaining }

/-- What happens to a view the user leaves alone. -/
inductive ViewEvent where
  | setState (state : TransportState)
  | reconnectTimeout
  | countdownTimeout
  deriving DecidableEq, Repr

/-- A timer that is not active does not time out; the one behind attempts is single-shot. -/
def TerminalView.step (v : TerminalView) : ViewEvent → TerminalView
  | .setState state => Terminal.setState state v
  | .reconnectTimeout =>
    match v.reconnectTimer with
    | none => v
    | some _ => doReconnectNow { v with reconnectTimer := none }
  | .countdownTimeout =>
    match v.countdownTimer with
    | none => v
    | some _ => tickCountdown v

/-- A timeout at which a new transport is put in place. -/
def attempts (v : TerminalView) : Prop := v.reconnectTimer ≠ none ∧ v.transport ≠ .connecting

instance (v : TerminalView) : Decidable (attempts v) := by unfold attempts; infer_instance

/-! ## What has happened -/

/-- The history since the last `Connected` that the policy speaks of. -/
structure Ledger where
  /-- Connections that dropped or failed, one after the other. -/
  failures : Nat
  /-- The connection at hand is one of them. -/
  down : Bool
  /-- The connection at hand was started by the timer. -/
  auto : Bool
  failedAttempts : Nat
  /-- An automatic attempt has been made after a failure. -/
  retried : Bool
  deriving DecidableEq, Repr

def Ledger.empty : Ledger := ⟨0, false, false, 0, false⟩

/-- A report that the connection is down; the first one for a connection counts. -/
def Ledger.drop (l : Ledger) : Ledger :=
  if l.down then l
  else
    { l with failures := l.failures + 1, down := true, auto := false,
             failedAttempts := if l.auto then l.failedAttempts + 1 else l.failedAttempts }

def Ledger.report (l : Ledger) : TransportState → Ledger
  | .connected => .empty
  | .connecting => { l with down := false }
  | .disconnected => l.drop
  | .error => l.drop

def Ledger.step (v : TerminalView) (l : Ledger) : ViewEvent → Ledger
  | .setState state => if v.transport ≠ state then l.report state else l
  | .reconnectTimeout =>
    if attempts v then { l with down := false, auto := true, retried := l.retried || l.failures ≠ 0 } else l
  | .countdownTimeout => l

structure Pane where
  view : TerminalView
  ledger : Ledger
  deriving DecidableEq, Repr

def Pane.opened : Pane := ⟨.opened, .empty⟩

def Pane.step (p : Pane) (event : ViewEvent) : Pane := ⟨p.view.step event, p.ledger.step p.view event⟩

end LvdTerm.Terminal
