import LvdTerm.Core.Crypto
import LvdTerm.Lib.Runs
import LvdTerm.Lib.WriteQueue
import LvdTerm.Terminal.HexDumpWidget

/-!
# SshWorker: the write queue

The bytes of `SshWorker`'s write queue, the stage and the write notifier. Each call is given with what
`libssh2_channel_write` returns to it, in order. A call that has got fewer answers than it needs is still in its
last write. A worker is started once: a pane that reconnects gets a new transport.
-/
namespace LvdTerm.Ssh.PumpWrites

open LvdTerm.Core (QByteArray)
open LvdTerm.Terminal (toInt removeFront)
open Lib (Fifo)

inductive Stage where
  | idle | connected | failed
  deriving DecidableEq, Repr

/-- What `libssh2_channel_write` returns: it takes as much as there is room for. -/
inductive WriteReturn where
  | wrote (room : Nat) (positive : 0 < room)
  | eagain
  | error

structure Worker where
  stage : Stage
  pendingWrite : QByteArray := []
  /-- Whether the notifier is enabled, if there is one. -/
  writeNotifier : Option Bool
  /-- The bytes that were given to `enqueueWrite` while connected. -/
  enqueued : QByteArray := []
  /-- The bytes the channel has taken. -/
  accepted : QByteArray := []
  deriving DecidableEq, Repr

namespace Worker

/-- `start`, from where the shell is open. -/
def started : Worker where
  stage := .connected
  writeNotifier := some false

def teardown (w : Worker) : Worker := { w with stage := .idle, writeNotifier := none }

def setWriteNotifierEnabled (enabled : Bool) (w : Worker) : Worker :=
  { w with writeNotifier := w.writeNotifier.map fun _ => enabled }

/-- A write that was accepted. -/
def wrote (room : Nat) (w : Worker) : Worker :=
  let n := min room w.pendingWrite.length
  { w with pendingWrite := removeFront w.pendingWrite (toInt n), accepted := w.accepted ++ w.pendingWrite.take n }

/-- The worker, and whether `pumpWrites` has returned. -/
def pumpWrites (answers : List WriteReturn) (w : Worker) : Worker × Bool :=
  if w.pendingWrite.isEmpty then (w.setWriteNotifierEnabled false, true)
  else
    match answers with
    | [] => (w, false)
    | .eagain :: _ => (w.setWriteNotifierEnabled true, true)
    | .error :: _ => (w.teardown, true)
    | .wrote room _ :: answers => pumpWrites answers (w.wrote room)

def enqueueWrite (data : QByteArray) (answers : List WriteReturn) (w : Worker) : Worker × Bool :=
  if w.stage ≠ .connected then (w, true)
  else pumpWrites answers { w with pendingWrite := w.pendingWrite ++ data, enqueued := w.enqueued ++ data }

end Worker

inductive Event where
  | enqueueWrite (data : QByteArray) (answers : List WriteReturn)
  /-- The socket is writable: `onWriteActivity`. -/
  | writable (answers : List WriteReturn)
  /-- `stop`, or the end of the session found while reading. -/
  | ended

/-- The worker, and whether the last call has returned; only then there is a next one. -/
def step (s : Worker × Bool) (e : Event) : Worker × Bool :=
  if s.2 then
    match e with
    | .enqueueWrite data answers => s.1.enqueueWrite data answers
    | .writable answers => if s.1.writeNotifier = some true then s.1.pumpWrites answers else s
    | .ended => (s.1.teardown, true)
  else s

def run (events : List Event) : Worker × Bool := Lib.Runs.run step events (Worker.started, true)

/-! ## The order of the bytes -/

/-- What the queue promises while connected. -/
structure InOrder (s : Worker × Bool) : Prop where
  fifo : s.1.stage = .connected → Fifo s.1.enqueued s.1.accepted s.1.pendingWrite
  notifier : s.1.writeNotifier.isSome ↔ s.1.stage = .connected
  armed : s.1.stage = .connected → s.2 = true → s.1.pendingWrite ≠ [] → s.1.writeNotifier = some true

/-- Counts below `2 ^ 31`, which `static_cast<int>` keeps. -/
def WriteReturn.InRange : WriteReturn → Prop
  | .wrote room _ => room < 2 ^ 31
  | _ => True

def Event.answers : Event → List WriteReturn
  | .enqueueWrite _ answers | .writable answers => answers
  | .ended => []

def Event.InRange (e : Event) : Prop := ∀ answer ∈ e.answers, answer.InRange

theorem toInt_of_lt {n : Nat} (h : n < 2 ^ 31) : toInt n = n := by
  have hmod : n % 2 ^ 32 = n := Nat.mod_eq_of_lt (by omega)
  rw [toInt, hmod, if_pos h]

theorem wrote_of_inRange {room : Nat} (h : room < 2 ^ 31) (w : Worker) :
    w.wrote room = { w with pendingWrite := w.pendingWrite.drop (min room w.pendingWrite.length)
                            accepted := w.accepted ++ w.pendingWrite.take (min room w.pendingWrite.length) } := by
  have hmin : min room w.pendingWrite.length < 2 ^ 31 := lt_of_le_of_lt (min_le_left _ _) h
  simp only [Worker.wrote, toInt_of_lt hmin, removeFront, Int.toNat_natCast]

theorem inOrder_teardown (w : Worker) (returned : Bool) : InOrder (w.teardown, returned) where
  fifo hstage := nomatch hstage
  notifier := by simp [Worker.teardown]
  armed hstage := nomatch hstage

/-- A connected worker whose bytes are in order. -/
structure Pumping (w : Worker) : Prop where
  connected : w.stage = .connected
  notifier : w.writeNotifier.isSome
  fifo : Fifo w.enqueued w.accepted w.pendingWrite

theorem Pumping.inOrder {w : Worker} (h : Pumping w) {returned : Bool}
    (harmed : returned = true → w.pendingWrite ≠ [] → w.writeNotifier = some true) : InOrder (w, returned) where
  fifo _ := h.fifo
  notifier := iff_of_true h.notifier h.connected
  armed _ := harmed

theorem InOrder.pumping {s : Worker × Bool} (h : InOrder s) (hconnected : s.1.stage = .connected) : Pumping s.1 :=
  ⟨hconnected, h.notifier.mpr hconnected, h.fifo hconnected⟩

theorem Pumping.setWriteNotifierEnabled {w : Worker} (h : Pumping w) {enabled : Bool}
    (henabled : w.pendingWrite ≠ [] → enabled = true) : InOrder (w.setWriteNotifierEnabled enabled, true) := by
  obtain ⟨b, hb⟩ := Option.isSome_iff_exists.mp h.notifier
  have hnotifier : (w.setWriteNotifierEnabled enabled).writeNotifier = some enabled := by
    simp only [Worker.setWriteNotifierEnabled, hb, Option.map_some]
  have hpumping : Pumping (w.setWriteNotifierEnabled enabled) := ⟨h.connected, by rw [hnotifier]; rfl, h.fifo⟩
  apply hpumping.inOrder
  intro _ hpending
  rw [hnotifier, henabled hpending]

/-- One round after the other, the pump keeps the bytes in order, and leaves pending bytes behind only with the notifier
enabled or without a connection. -/
theorem inOrder_pumpWrites {answers : List WriteReturn} (hrange : ∀ answer ∈ answers, answer.InRange) {w : Worker}
    (h : Pumping w) : InOrder (w.pumpWrites answers) := by
  induction answers generalizing w with
  | nil =>
    unfold Worker.pumpWrites
    split
    next hempty => exact h.setWriteNotifierEnabled fun hne => absurd (List.isEmpty_iff.mp hempty) hne
    next => exact h.inOrder fun hreturned => nomatch hreturned
  | cons answer answers ih =>
    have hrest : ∀ a ∈ answers, a.InRange := fun a ha => hrange a (.tail _ ha)
    unfold Worker.pumpWrites
    split
    next hempty => exact h.setWriteNotifierEnabled fun hne => absurd (List.isEmpty_iff.mp hempty) hne
    next =>
      cases answer with
      | eagain => exact h.setWriteNotifierEnabled fun _ => rfl
      | error => exact inOrder_teardown w true
      | wrote room positive =>
        have hroom : room < 2 ^ 31 := hrange _ (.head _)
        apply ih hrest
        rw [wrote_of_inRange hroom]
        exact ⟨h.connected, h.notifier, h.fifo.accept _⟩

theorem inOrder_step {s : Worker × Bool} (h : InOrder s) {e : Event} (hrange : e.InRange) : InOrder (step s e) := by
  unfold step
  split
  next hreturned =>
    cases e with
    | enqueueWrite data answers =>
      simp only [Worker.enqueueWrite]
      split
      next hstage =>
        refine ⟨fun hconnected => absurd hconnected hstage, h.notifier, fun hconnected => absurd hconnected hstage⟩
      next hstage =>
        have hpumping := h.pumping (not_not.mp hstage)
        exact inOrder_pumpWrites hrange ⟨hpumping.connected, hpumping.notifier, hpumping.fifo.enqueue data⟩
    | writable answers =>
      simp only
      split
      next henabled => exact inOrder_pumpWrites hrange (h.pumping (h.notifier.mp (by rw [henabled]; rfl)))
      next => exact h
    | ended => exact inOrder_teardown s.1 true
  next => exact h

theorem inOrder_run {events : List Event} (hrange : ∀ e ∈ events, e.InRange) : InOrder (run events) := by
  have hstarted : Pumping Worker.started := ⟨rfl, rfl, Fifo.nil⟩
  have hstep : ∀ s (e : Event), InOrder s → e.InRange → InOrder (step s e) := fun _ _ h hr => inOrder_step h hr
  exact Lib.Runs.run_keeps_of hstep hrange (hstarted.inOrder fun _ hpending => absurd rfl hpending)

/-- The cast of `2 ^ 31` is negative: all bytes are accepted, and all are still pending. -/
theorem run_huge_write {data : QByteArray} (hlen : data.length = 2 ^ 31) (hpos : 0 < data.length) :
    run [.enqueueWrite data [.wrote data.length hpos]] =
      ({ Worker.started with pendingWrite := data, enqueued := data, accepted := data }, false) := by
  have hne : ¬ data.isEmpty = true := by
    rw [List.isEmpty_iff_length_eq_zero]
    omega
  have hremove : removeFront data (toInt data.length) = data := by
    have htoInt : (toInt (2 ^ 31)).toNat = 0 := by decide
    rw [removeFront, hlen, htoInt, List.drop_zero]
  have hwrote : ({ Worker.started with pendingWrite := data, enqueued := data } : Worker).wrote data.length =
      { Worker.started with pendingWrite := data, enqueued := data, accepted := data } := by
    simp only [Worker.wrote, min_self, hremove, List.take_length, Worker.started, List.nil_append]
  have hpump : ({ Worker.started with pendingWrite := data, enqueued := data } : Worker).pumpWrites
      [.wrote data.length hpos] = ({ Worker.started with pendingWrite := data, enqueued := data, accepted := data }, false) := by
    rw [Worker.pumpWrites.eq_def, if_neg hne]
    simp only
    rw [hwrote, Worker.pumpWrites.eq_def, if_neg hne]
  exact hpump

end LvdTerm.Ssh.PumpWrites
