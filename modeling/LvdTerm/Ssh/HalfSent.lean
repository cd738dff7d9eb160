import LvdTerm.Ssh.SshWorker

/-!
# SshWorker: half-sent packets

libssh2 keeps one packet that the socket did not take whole and expects the call that sent it again.
Each source of the worker repeats its own call, or gives up, without a look at the others, so a run
keeps libssh2's rule exactly where no source sends while another's packet is pending.
-/
namespace LvdTerm.Ssh

open Lib.PendingSlot Lib.Runs

structure WorkerSession where
  worker : SshWorker
  session : Session Packet

def WorkerSession.step (s : WorkerSession) (event : WorkerEvent) : WorkerSession :=
  let r := (s.worker.handle event).run Packet.key s.session
  ⟨r.1, r.2⟩

/-- Whenever a packet was pending, the next one sent was the same again. -/
def NoneAbandoned (s : WorkerSession) : Prop := Retries s.session.log

/-- The only packet that the event's calls send. -/
def WorkerEvent.onlyPacket : WorkerEvent → Option Packet
  | .enqueueWrite _ _ => some (.data .shell)
  | .writeActivity _ => some (.data .shell)
  | .requestResize cols rows _ => some (.windowChange cols rows)
  | .keepaliveTimer _ address _ => some (.keepalive address)
  | _ => none

/-- The event sends nothing, or nothing but its own packet is pending; a pump, which sends for many
channels, never goes on to another packet behind one that the socket does not take whole. -/
def Undisturbed (s : WorkerSession) (event : WorkerEvent) : Prop :=
  match event.onlyPacket with
  | some packet => (s.worker.handle event).sends = [] ∨ s.session.pending = none ∨ s.session.pending = some packet
  | none => Chain s.session.pending (s.worker.handle event).sends

/-! ## What each source sends -/

/-- Code that sends no other packet. -/
def SendsOnly {α : Type} (packet : Packet) (m : Prog Packet α) : Prop := ∀ p ∈ m.sends, p.1 = packet

variable {α β : Type} {packet : Packet}

theorem SendsOnly.pure (a : α) : SendsOnly packet (Pure.pure a : Prog Packet α) := nofun

theorem SendsOnly.bind {m : Prog Packet α} {f : α → Prog Packet β} (hm : SendsOnly packet m)
    (hf : ∀ a, SendsOnly packet (f a)) : SendsOnly packet (m >>= f) := by
  intro p hp
  rw [Prog.sends_bind, List.mem_append] at hp
  obtain hp | hp := hp
  · exact hm p hp
  · exact hf _ p hp

theorem SendsOnly.call (taken : Taken) : SendsOnly packet (Prog.call packet taken) := by
  intro p hp
  rw [List.mem_singleton.mp hp]

theorem channelWrite_sendsOnly (channel : Channel) (call : WriteCall) (c : Composed) :
    SendsOnly (.data channel) (channelWrite channel call c) := by
  unfold channelWrite
  split
  · apply SendsOnly.bind (.call _)
    intro rc
    cases rc <;> exact .pure _
  · cases call with
    | noRoom => exact .pure _
    | drainFails => exact .pure _
    | sends taken length =>
      apply SendsOnly.bind (.call _)
      intro rc
      cases rc <;> exact .pure _

theorem pumpWrites_sendsOnly (calls : List WriteCall) (w : SshWorker) :
    SendsOnly (.data .shell) (pumpWrites calls w) := by
  induction calls generalizing w with
  | nil => exact .pure _
  | cons call calls ih =>
    unfold pumpWrites
    split
    · exact .pure _
    · apply (channelWrite_sendsOnly .shell call w.composed).bind
      rintro ⟨outcome, c⟩
      cases outcome with
      | wrote n => exact ih _
      | eagain => exact .pure _
      | error => exact .pure _

theorem resizeAttempts_sendsOnly (cols rows : Int) (taken : Nat → Taken) (n i : Nat) :
    SendsOnly (.windowChange cols rows) (resizeAttempts cols rows taken n i) := by
  induction n generalizing i with
  | zero => exact .pure _
  | succ n ih =>
    apply SendsOnly.bind (.call _)
    intro rc
    cases rc with
    | ok => exact .pure _
    | eagain => exact ih _
    | error => exact .pure _

theorem handle_sendsOnly (w : SshWorker) {event : WorkerEvent} (h : event.onlyPacket = some packet) :
    SendsOnly packet (w.handle event) := by
  unfold SshWorker.handle
  split
  · cases event with
    | enqueueWrite size writes =>
      cases h
      exact pumpWrites_sendsOnly writes _
    | writeActivity writes =>
      cases h
      exact pumpWrites_sendsOnly writes w
    | requestResize cols rows taken =>
      cases h
      exact (resizeAttempts_sendsOnly cols rows taken 20 0).bind fun _ => .pure _
    | keepaliveTimer due address taken =>
      cases h
      cases due with
      | true => exact (SendsOnly.call taken).bind fun _ => .pure _
      | false => exact .pure _
    | pump rounds => cases h
    | readActivity rounds reads => cases h
    | channelOpen channel => cases h
  · exact .pure _

/-! ## Runs -/

theorem noneAbandoned_step_iff {s : WorkerSession} (h : NoneAbandoned s) (event : WorkerEvent) :
    NoneAbandoned (s.step event) ↔ Undisturbed s event := by
  have hchain : NoneAbandoned (s.step event) ↔ Chain s.session.pending (s.worker.handle event).sends :=
    retries_iff_chain (s.worker.handle event) h
  rw [hchain]
  unfold Undisturbed
  split
  next packet hpacket => exact chain_of_same (handle_sendsOnly s.worker hpacket)
  next => exact Iff.rfl

end LvdTerm.Ssh
