import Mathlib.Data.List.Basic

/-!
# One pending packet

A connection that keeps at most one packet it could not send whole, and refuses every other one
until that is gone. `Prog` is code that sends packets and looks at the results. `run` sends them
over a connection; `sends` lists the packets if none were refused. A run never meets a refusal
exactly where the list shows none (`retries_iff_chain`).
-/
namespace LvdTerm.Lib.PendingSlot

/-- How the socket takes what is left of a packet. -/
inductive Taken where
  | all
  | part
  | error
  deriving DecidableEq

inductive Rc where
  | ok
  | eagain
  | error
  deriving DecidableEq

def Taken.rc : Taken → Rc
  | .all => .ok
  | .part => .eagain
  | .error => .error

variable {κ δ α β : Type}

/-- Code that sends packets; the socket's answer to each is known in advance. -/
inductive Prog (κ α : Type) where
  | done (a : α)
  | send (packet : κ) (taken : Taken) (next : Rc → Prog κ α)

namespace Prog

def bind : Prog κ α → (α → Prog κ β) → Prog κ β
  | .done a, f => f a
  | .send packet taken next, f => .send packet taken fun rc => (next rc).bind f

instance : Monad (Prog κ) where
  pure := .done
  bind := .bind

/-- Sends one packet and returns its result. -/
def call (packet : κ) (taken : Taken) : Prog κ Rc := .send packet taken .done

/-- The packets, if none is refused. -/
def sends : Prog κ α → List (κ × Taken)
  | .done _ => []
  | .send packet taken next => (packet, taken) :: (next taken.rc).sends

/-- The result, if no packet is refused. -/
def result : Prog κ α → α
  | .done a => a
  | .send _ taken next => (next taken.rc).result

theorem sends_bind (m : Prog κ α) (f : α → Prog κ β) : (m >>= f).sends = m.sends ++ (f m.result).sends := by
  induction m with
  | done a => rfl
  | send packet taken next ih => exact congrArg (List.cons (packet, taken)) (ih taken.rc)

end Prog

/-- The pending packet, and every packet that was sent, with the one that was pending then. -/
structure Session (κ : Type) where
  pending : Option κ := none
  log : List (κ × Option κ) := []

/-- What is pending after a packet that is not refused. -/
def pendingAfter (pending : Option κ) (packet : κ) : Taken → Option κ
  | .all => none
  | .part => some (pending.getD packet)
  | .error => pending

variable [DecidableEq δ] (key : κ → δ)

/-- A packet is taken for the pending one where their keys are equal. -/
def Session.send (s : Session κ) (packet : κ) (taken : Taken) : Rc × Session κ :=
  let log := s.log ++ [(packet, s.pending)]
  match s.pending with
  | none => (taken.rc, ⟨pendingAfter none packet taken, log⟩)
  | some q => if key q ≠ key packet then (.eagain, ⟨some q, log⟩) else (taken.rc, ⟨pendingAfter (some q) packet taken, log⟩)

def Prog.run : Prog κ α → Session κ → α × Session κ
  | .done a, s => (a, s)
  | .send packet taken next, s => (next (s.send key packet taken).1).run (s.send key packet taken).2

/-- Whenever a packet is pending, it is the one that is sent next. -/
def Retries (log : List (κ × Option κ)) : Prop := ∀ entry ∈ log, ∀ q, entry.2 = some q → entry.1 = q

/-- The same of a list of packets, with what is pending before the first. -/
def Chain : Option κ → List (κ × Taken) → Prop
  | _, [] => True
  | pending, (packet, taken) :: rest =>
    (∀ q, pending = some q → packet = q) ∧ Chain (pendingAfter pending packet taken) rest

variable {key}

theorem retries_append (log : List (κ × Option κ)) (packet : κ) (pending : Option κ) :
    Retries (log ++ [(packet, pending)]) ↔ Retries log ∧ ∀ q, pending = some q → packet = q := by
  unfold Retries
  rw [List.forall_mem_append]
  apply and_congr_right
  intro _
  exact List.forall_mem_singleton

theorem send_log (s : Session κ) (packet : κ) (taken : Taken) :
    (s.send key packet taken).2.log = s.log ++ [(packet, s.pending)] := by
  unfold Session.send
  dsimp only
  split
  · rfl
  · split <;> rfl

theorem retries_of_send {s : Session κ} {packet : κ} {taken : Taken} (h : Retries (s.send key packet taken).2.log) :
    Retries s.log := by
  rw [send_log, retries_append] at h
  exact h.1

/-- A retry is not refused. -/
theorem send_of_retry (key : κ → δ) {s : Session κ} {packet : κ} (taken : Taken) (h : ∀ q, s.pending = some q → packet = q) :
    (s.send key packet taken).1 = taken.rc ∧ (s.send key packet taken).2.pending = pendingAfter s.pending packet taken := by
  unfold Session.send
  dsimp only
  split
  next hnone =>
    rw [hnone]
    exact ⟨rfl, rfl⟩
  next q hq =>
    rw [if_neg (not_not.mpr (congrArg key (h q hq).symm)), hq]
    exact ⟨rfl, rfl⟩

theorem retries_of_run (m : Prog κ α) {s : Session κ} (h : Retries (m.run key s).2.log) : Retries s.log := by
  induction m generalizing s with
  | done a => exact h
  | send packet taken next ih => exact retries_of_send (ih _ h)

/-- What a run has sent is a chain of retries exactly where the list of its packets is one. -/
theorem retries_iff_chain (m : Prog κ α) {s : Session κ} (h : Retries s.log) :
    Retries (m.run key s).2.log ↔ Chain s.pending m.sends := by
  induction m generalizing s with
  | done a => exact iff_of_true h trivial
  | send packet taken next ih =>
    constructor
    · intro hrun
      have hsend : Retries (s.send key packet taken).2.log := retries_of_run _ hrun
      have hretry := hsend
      rw [send_log, retries_append] at hretry
      obtain ⟨hrc, hpending⟩ := send_of_retry key taken hretry.2
      refine ⟨hretry.2, ?_⟩
      rw [← hpending, ← hrc]
      exact (ih _ hsend).mp hrun
    · rintro ⟨hretry, hrest⟩
      obtain ⟨hrc, hpending⟩ := send_of_retry key taken hretry
      have hsend : Retries (s.send key packet taken).2.log := by
        rw [send_log, retries_append]
        exact ⟨h, hretry⟩
      apply (ih _ hsend).mpr
      rw [hrc, hpending]
      exact hrest

/-- A source that sends one packet only disturbs nothing but another pending packet. -/
theorem chain_of_same {packet : κ} {pending : Option κ} {packets : List (κ × Taken)}
    (hsame : ∀ p ∈ packets, p.1 = packet) :
    Chain pending packets ↔ packets = [] ∨ pending = none ∨ pending = some packet := by
  induction packets generalizing pending with
  | nil => exact iff_of_true trivial (.inl rfl)
  | cons p packets ih =>
    obtain ⟨q, taken⟩ := p
    obtain rfl : q = packet := hsame (q, taken) List.mem_cons_self
    have hrest : ∀ pending, Chain pending packets ↔ packets = [] ∨ pending = none ∨ pending = some q :=
      fun _ => ih fun p hp => hsame p (List.mem_cons_of_mem _ hp)
    constructor
    · rintro ⟨hretry, _⟩
      right
      cases pending with
      | none => exact .inl rfl
      | some q' => exact .inr (congrArg some (hretry q' rfl).symm)
    · rintro (hnil | rfl | rfl)
      · cases hnil
      · refine ⟨nofun, (hrest _).mpr (.inr ?_)⟩
        cases taken with
        | all => exact .inl rfl
        | part => exact .inr rfl
        | error => exact .inl rfl
      · refine ⟨fun q' hq' => Option.some.inj hq', (hrest _).mpr (.inr ?_)⟩
        cases taken with
        | all => exact .inl rfl
        | part => exact .inr rfl
        | error => exact .inr rfl

end LvdTerm.Lib.PendingSlot
