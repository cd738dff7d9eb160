import LvdTerm.Ssh.X11Forwarder

/-!
# X11Forwarder: where the bytes are

Every byte that has come in is out at the other end or still in one of the connection's buffers,
and nothing goes to the local server before a complete request has shown the cookie.
-/
namespace LvdTerm.Ssh

open LvdTerm.Core (QByteArray)
open Lib.Runs

/-- A complete request with our cookie. -/
def Authorized (x : Cookies) (stream : QByteArray) : Prop :=
  ∃ r rest, SetupRequest.decode stream = some (r, rest) ∧ r.data.bytes = x.fakeCookie.val

structure Ledger (x : Cookies) (b : Bridge) : Prop where
  waiting : b.conn.setupDone = false → b.conn.setup = b.read ∧ b.conn.toLocal = [] ∧ b.handed = [] ∧ b.writeCalls = 0
  done : b.conn.setupDone = true → Authorized x b.read ∧ b.handed ++ b.conn.toLocal = rewritten x b.read
  remote : b.written ++ b.conn.toRemote ++ b.incoming = b.sent

variable {x : Cookies}

theorem Authorized.append {stream : QByteArray} (h : Authorized x stream) (t : QByteArray) : Authorized x (stream ++ t) := by
  obtain ⟨r, rest, hdecode, hcookie⟩ := h
  exact ⟨r, rest ++ t, decode_append hdecode t, hcookie⟩

theorem Authorized.rewritten_append {stream : QByteArray} (h : Authorized x stream) (t : QByteArray) :
    rewritten x (stream ++ t) = rewritten x stream ++ t := by
  obtain ⟨r, rest, hdecode, hcookie⟩ := h
  exact Ssh.rewritten_append x hdecode hcookie t

theorem rewritten_of_not_authorized {stream : QByteArray} (h : ¬ Authorized x stream) : rewritten x stream = [] := by
  unfold rewritten
  split
  · rfl
  next r rest hdecode =>
    rw [if_neg]
    intro hcookie
    exact h ⟨r, rest, hdecode, hcookie⟩

/-- What `processSetup` makes of a connection that still waits for its request. -/
theorem processSetup_some {c c' : Connection} (h : processSetup x c = some c') :
    c' = c ∨ Authorized x c.setup ∧
      c' = { c with toLocal := c.toLocal ++ rewritten x c.setup, setup := [], setupDone := true } := by
  cases hdecode : SetupRequest.decode c.setup with
  | none =>
    rw [processSetup_incomplete x c hdecode] at h
    split at h
    · cases h
    · cases h
      exact .inl rfl
  | some p =>
    rw [processSetup_complete x c hdecode] at h
    split at h
    next hcookie =>
      cases h
      exact .inr ⟨⟨p.1, p.2, hdecode, hcookie⟩, rfl⟩
    next => cases h

/-! ## What each part of a pass keeps -/

theorem readChannel_ledger (reads : List QByteArray) (ending : ReadEnd) {b : Bridge} (h : Ledger x b) :
    Ledger x (readChannel x reads ending b).1 := by
  induction reads generalizing b with
  | nil => exact ⟨h.waiting, h.done, h.remote⟩
  | cons bytes reads ih =>
    unfold readChannel
    cases hdone : b.conn.setupDone with
    | true =>
      rw [if_pos rfl]
      obtain ⟨hauth, hlocal⟩ := h.done hdone
      apply ih
      constructor
      · intro hwaiting
        exact absurd (hdone.symm.trans hwaiting) (by decide)
      · intro _
        refine ⟨hauth.append bytes, ?_⟩
        rw [hauth.rewritten_append, ← hlocal, List.append_assoc]
      · exact h.remote
    | false =>
      rw [if_neg Bool.false_ne_true]
      obtain ⟨hsetup, hlocal, hhanded, hcalls⟩ := h.waiting hdone
      split
      next =>
        constructor
        · intro _
          exact ⟨congrArg (· ++ bytes) hsetup, hlocal, hhanded, hcalls⟩
        · intro hnot
          exact absurd (hdone.symm.trans hnot) (by decide)
        · exact h.remote
      next conn hconn =>
        apply ih
        obtain rfl | ⟨hauth, rfl⟩ := processSetup_some hconn
        · constructor
          · intro _
            exact ⟨congrArg (· ++ bytes) hsetup, hlocal, hhanded, hcalls⟩
          · intro hnot
            exact absurd (hdone.symm.trans hnot) (by decide)
          · exact h.remote
        · dsimp only at hauth
          rw [hsetup] at hauth
          constructor
          · intro hnot
            cases hnot
          · intro _
            refine ⟨hauth, ?_⟩
            dsimp only
            rw [hhanded, hlocal, hsetup]
            rfl
          · exact h.remote

theorem writeSocket_ledger (n : Nat) {b : Bridge} (h : Ledger x b) : Ledger x (writeSocket n b) := by
  unfold writeSocket
  split
  · exact h
  next hlocal =>
    constructor
    · intro hwaiting
      exact absurd (h.waiting hwaiting).2.1 hlocal
    · intro hdone
      obtain ⟨hauth, hhanded⟩ := h.done hdone
      refine ⟨hauth, ?_⟩
      rw [← hhanded, List.append_assoc, List.take_append_drop]
    · exact h.remote

theorem readSocket_ledger {b : Bridge} (h : Ledger x b) : Ledger x (readSocket b) where
  waiting := h.waiting
  done := h.done
  remote := by
    have hremote : b.written ++ (b.conn.toRemote ++ b.incoming) ++ [] = b.sent := by
      rw [List.append_nil, ← List.append_assoc, h.remote]
    exact hremote

theorem writeChannel_ledger (results : List WriteResult) {b : Bridge} (h : Ledger x b) :
    Ledger x (writeChannel results b).1 := by
  induction results generalizing b with
  | nil => exact h
  | cons result results ih =>
    unfold writeChannel
    split
    · exact h
    · cases result with
      | eagain => exact h
      | error => exact h
      | accepted n =>
        apply ih
        refine ⟨h.waiting, h.done, ?_⟩
        rw [← h.remote, List.append_assoc b.written, List.take_append_drop]

theorem pass_ledger (calls : Calls) {b : Bridge} (h : Ledger x b) : Ledger x (pass x calls b).1 := by
  have hread := readChannel_ledger calls.reads calls.ending h
  have hsocket : Ledger x (if !(readChannel x calls.reads calls.ending b).2 &&
      !(readChannel x calls.reads calls.ending b).1.unconnected && calls.isOpen then
        readSocket (writeSocket calls.socketWrite (readChannel x calls.reads calls.ending b).1)
      else (readChannel x calls.reads calls.ending b).1) := by
    split
    · exact readSocket_ledger (writeSocket_ledger calls.socketWrite hread)
    · exact hread
  unfold pass
  dsimp only
  split
  · exact hsocket
  · exact writeChannel_ledger _ hsocket

theorem display_ledger (event : DisplayEvent) {b : Bridge} (h : Ledger x b) : Ledger x (b.display event) := by
  cases event with
  | closes => exact ⟨h.waiting, h.done, h.remote⟩
  | sends bytes =>
    dsimp only [Bridge.display]
    split
    · exact h
    · refine ⟨h.waiting, h.done, ?_⟩
      rw [← h.remote, List.append_assoc _ b.incoming bytes]

theorem adopted_ledger (connects : Bool) : Ledger x (adopted connects) where
  waiting _ := ⟨rfl, rfl, rfl, rfl⟩
  done h := by cases h
  remote := rfl

/-! ## One connection, from its start -/

inductive BridgeEvent where
  | pass (calls : Calls)
  | display (event : DisplayEvent)

/-- A connection that has been removed has no more passes. -/
def Bridge.step (x : Cookies) (s : Bridge × Bool) : BridgeEvent → Bridge × Bool
  | .pass calls => if s.2 then s else pass x calls s.1
  | .display event => (s.1.display event, s.2)

end LvdTerm.Ssh
