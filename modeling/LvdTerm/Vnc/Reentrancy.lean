import LvdTerm.Vnc.Freshness
import LvdTerm.Vnc.SecurityGrammar

/-!
# VNC client: the password dialog's event loop

`stepAuthChallenge` asks for a password in an event loop of its own, in which the user and the socket
go on. The calls of `onReadyRead` that wait for an answer are a stack, and the innermost one is
answered first. Its `m_socket->write` does not look whether the socket it asked for is still there.
-/
namespace LvdTerm.Vnc

open Lib Lib.Action

variable {E : Env} {c c' : VncClient E}

/-- A call of `onReadyRead`: in its loop, or in the dialog that the loop has opened. -/
inductive Handler where
  | looping
  | asking (challenge : List UInt8)
  deriving DecidableEq

structure GuiThread (E : Env) where
  client : VncClient E
  /-- The innermost call first. -/
  handlers : List Handler

inductive Occurrence where
  | connectToHost (password : String)
  | close
  | readyRead (chunk : List UInt8)
  | disconnected
  | errorOccurred (remoteHostClosed : Bool) (message : String)
  /-- `m_stage != Stage::Idle && step()`, once. -/
  | round
  /-- The dialog is closed; `none` if it was cancelled. -/
  | answer (entered : Option String)

/-- Whether the next step opens the dialog. -/
def asksPassword (c : VncClient E) : Bool :=
  c.stage = .authChallenge ∧ 16 ≤ c.buf.length ∧ c.password = "" ∧ c.passwordProvider.isSome

/-- `stepAuthChallenge` from the answer on. -/
def resumeChallenge (challenge : List UInt8) (entered : Option String) : ClientM E Bool :=
  match entered with
  | none => failStep "Cancelled"
  | some password => do
    Action.modify fun c => { c with password := password }
    write (encryptChallenge E challenge password)
    setStage .securityResult
    pure true

namespace GuiThread

/-- An event loop is running: the application's, or a dialog's. -/
def waits (t : GuiThread E) : Bool := t.handlers.head? ≠ some .looping

/-- A call that is made while an event loop runs. -/
def call (m : ClientM E Unit) (t : GuiThread E) : Except Fault (GuiThread E) :=
  if t.waits then (m t.client).map fun p => { t with client := p.2 } else .ok t

/-- `while (m_stage != Stage::Idle && step())`, one round of the innermost call. -/
def round (outer : List Handler) (c : VncClient E) : Except Fault (GuiThread E) :=
  if c.stage = .idle then .ok ⟨c, outer⟩
  else if asksPassword c then (consume 16 c).map fun p => ⟨p.2, .asking (c.buf.take 16) :: outer⟩
  else (step c).map fun p => ⟨p.2, if p.1 then .looping :: outer else outer⟩

def occur (t : GuiThread E) : Occurrence → Except Fault (GuiThread E)
  | .connectToHost password => t.call (Vnc.connectToHost password)
  | .close => t.call Vnc.close
  | .readyRead chunk =>
    if t.waits ∧ t.client.socket then
      if (appendChunk chunk t.client).buf.length < 2 ^ 31 then
        .ok ⟨appendChunk chunk t.client, .looping :: t.handlers⟩
      else .error .intOverflow
    else .ok t
  | .disconnected => t.call (deliver .disconnected)
  | .errorOccurred remoteHostClosed message => t.call (deliver (.errorOccurred remoteHostClosed message))
  | .round =>
    match t.handlers with
    | .looping :: outer => GuiThread.round outer t.client
    | _ => .ok t
  | .answer entered =>
    match t.handlers with
    | .asking challenge :: outer =>
      (resumeChallenge challenge entered t.client).map fun p => ⟨p.2, if p.1 then .looping :: outer else outer⟩
    | _ => .ok t

end GuiThread

/-- A thread that may come about, each occurrence allowed by `P`. -/
inductive CameAbout (P : GuiThread E → Occurrence → Prop) (t₀ : GuiThread E) : GuiThread E → Prop where
  | start : CameAbout P t₀ t₀
  | occur {t t' : GuiThread E} {o : Occurrence} (h : CameAbout P t₀ t) (hP : P t o) (ho : t.occur o = .ok t') : CameAbout P t₀ t'

/-- Asked for a password, which the dialog has. -/
def VncClient.asked : VncClient Env.bare :=
  { VncClient.connecting Env.bare (some (some "secret")) [] "" with stage := .authChallenge, buf := List.replicate 16 0 }

/-- There is a socket as long as the client is not idle. -/
structure Linked (c : VncClient E) : Prop where
  open_iff : c.socket = true ↔ c.stage ≠ .idle
  failed : c.failedAlready = true → c.stage = .idle
  running : c.stage = .running → .ready ∈ c.events

theorem Linked.alike (h : Linked c) : Alike [] c c where
  events := rfl
  socket := rfl
  buf := rfl
  stage := rfl
  passwordProvider := rfl
  password := rfl
  maxMinor := rfl
  encodings := rfl
  failedAlready := rfl
  open_iff := h.open_iff
  failed := h.failed
  minor _ _ := rfl
  dirty := rfl
  resized := rfl
  tightStreams _ := .refl _
  zrleStream := .refl _
  screen _ := rfl
  running := h.running
  inRect := rfl
  progress _ := rfl
  left := .inl rfl
  mode _ := rfl

theorem Alike.linked (h : Alike [] c c') : Linked c' := ⟨h.open_iff, h.failed, h.running⟩

/-- What clients that are alike go through together, one goes through on its own. -/
theorem linked_of_paired {α : Type} {m : ClientM E α} (h : Paired Excused m (fun _ => Alike []) c c) :
    wp Excused m (fun _ => Linked) c := by
  unfold Paired at h
  unfold wp
  generalize m c = r at h
  cases h with
  | ok _ h => exact h.linked
  | error _ hf => exact hf

/-! ## The claim -/

def Event.isWrite : Event → Bool
  | .write _ => true
  | _ => false

/-- What has been written to sockets. -/
def written (c : VncClient E) : List Event := c.events.filter Event.isWrite

/-- Idle means idle, in `t` and through what occurs next. -/
structure IdleMeansIdle (t : GuiThread E) (o : Occurrence) : Prop where
  linked : t.client.stage ≠ .idle → t.client.socket = true
  failed : t.client.failedAlready = true → t.client.stage = .idle
  closed : t.waits = true → ∀ t', t.occur .close = .ok t' → t'.client.stage = .idle
  noNullSocket : t.occur o ≠ .error .nullSocket
  stays : t.client.stage = .idle → (∀ password, o ≠ .connectToHost password) → ∀ t', t.occur o = .ok t' →
    t'.client.stage = .idle ∧ written t'.client = written t.client

/-- A password is entered only while there is a connection. -/
def InTime (t : GuiThread E) (o : Occurrence) : Prop :=
  ∀ challenge outer password, t.handlers = .asking challenge :: outer → o = .answer (some password) → t.client.stage ≠ .idle

/-! ## What occurs -/

/-- `t'` is linked, or `t` has run into a fault that is excused. -/
def Sound (r : Except Fault (GuiThread E)) : Prop :=
  match r with
  | .ok t' => Linked t'.client
  | .error f => Excused f

theorem sound_map {α : Type} {m : ClientM E α} (handlers : α → List Handler) (h : wp Excused m (fun _ => Linked) c) :
    Sound ((m c).map fun p => ⟨p.2, handlers p.1⟩) := by
  unfold wp at h
  generalize m c = r at h
  cases r with
  | ok p => exact h
  | error f => exact h

theorem sound_call {m : ClientM E Unit} {t : GuiThread E} (ht : Linked t.client)
    (h : wp Excused m (fun _ => Linked) t.client) : Sound (t.call m) := by
  unfold GuiThread.call
  split
  · exact sound_map (fun _ => t.handlers) h
  · exact ht

theorem linked_connectToHost (password : String) (c : VncClient E) : wp Excused (connectToHost password) (fun _ => Linked) c := by
  have hlinked : Linked (reconnected password c) := ⟨by simp [reconnected], nofun, nofun⟩
  exact hlinked

theorem linked_close (c : VncClient E) : wp Excused close (fun _ => Linked) c := by
  have hlinked : Linked { c with stage := .idle, socket := false } := ⟨by simp, fun _ => rfl, nofun⟩
  exact hlinked

theorem linked_round (h : Linked c) (outer : List Handler) : Sound (GuiThread.round outer c) := by
  unfold GuiThread.round
  split
  · exact h
  · split
    · refine sound_map (fun _ => .asking (c.buf.take 16) :: outer) (linked_of_paired ?_)
      exact paired_consume rfl { h.alike with buf := rfl }
    · exact sound_map (fun more => if more then .looping :: outer else outer) (linked_of_paired (alike_step h.alike))

theorem linked_resumeChallenge (h : Linked c) (challenge : List UInt8) {entered : Option String}
    (hin : ∀ password, entered = some password → c.stage ≠ .idle) :
    wp Excused (resumeChallenge challenge entered) (fun _ => Linked) c := by
  cases entered with
  | none => exact linked_of_paired (h.alike.failStep _)
  | some password =>
    have hidle := hin password rfl
    have hentered : Alike [] { c with password := password } { c with password := password } := { h.alike with password := rfl }
    refine linked_of_paired (paired_bind (paired_modify (paired_bind (paired_write (h.open_iff.mpr hidle) (h.open_iff.mpr hidle) ?_))))
    exact paired_bind (paired_modify (paired_pure ((hentered.wrote _).advance hidle rfl (by decide))))

/-- Whatever occurs, as long as passwords are entered in time. -/
theorem linked_occur {t : GuiThread E} {o : Occurrence} (h : Linked t.client) (hin : InTime t o) : Sound (t.occur o) := by
  cases o with
  | connectToHost password => exact sound_call h (linked_connectToHost password _)
  | close => exact sound_call h (linked_close _)
  | readyRead chunk =>
    simp only [GuiThread.occur]
    split
    · split
      · exact ⟨h.open_iff, h.failed, h.running⟩
      · exact (by decide : Excused .intOverflow)
    · exact h
  | disconnected => exact sound_call h (linked_of_paired (alike_deliver h.alike _))
  | errorOccurred remoteHostClosed message => exact sound_call h (linked_of_paired (alike_deliver h.alike _))
  | round =>
    simp only [GuiThread.occur]
    split
    · exact linked_round h _
    · exact h
  | answer entered =>
    simp only [GuiThread.occur]
    split
    · rename_i challenge outer hasks
      refine sound_map (fun more => if more then .looping :: outer else outer) (linked_resumeChallenge h challenge fun password he => ?_)
      exact hin _ _ password hasks (congrArg _ he)
    · exact h

theorem CameAbout.linked {t₀ t : GuiThread E} (h : CameAbout InTime t₀ t) (h₀ : Linked t₀.client) : Linked t.client := by
  induction h with
  | start => exact h₀
  | occur _ hP ho ih =>
    have hsound := linked_occur ih hP
    rw [ho] at hsound
    exact hsound

/-! ## Staying idle -/

/-- Idle still, and nothing written. -/
def Rests (c : VncClient E) (r : Except Fault (GuiThread E)) : Prop :=
  ∀ t', r = .ok t' → t'.client.stage = .idle ∧ written t'.client = written c

theorem rests_self {t : GuiThread E} (hs : t.client.stage = .idle) : Rests t.client (.ok t) := by
  intro t' h
  cases h
  exact ⟨hs, rfl⟩

theorem rests_call {m : ClientM E Unit} {t : GuiThread E} (hs : t.client.stage = .idle)
    (hm : ∀ c', m t.client = .ok ((), c') → c'.stage = .idle ∧ written c' = written t.client) : Rests t.client (t.call m) := by
  unfold GuiThread.call
  split
  · intro t' h
    cases hr : m t.client with
    | error f =>
      rw [hr] at h
      cases h
    | ok p =>
      rw [hr] at h
      cases h
      exact hm p.2 hr
  · exact rests_self hs

/-- A closed client is told nothing by its socket. -/
theorem deliver_closed {event : SocketEvent} (h : c.socket = false) : deliver event c = .ok ((), c) := by
  unfold deliver
  rw [bind_of_ok (gets_apply _ _), h]
  rfl

theorem rests_deliver {t : GuiThread E} (h : Linked t.client) (hs : t.client.stage = .idle) (event : SocketEvent) :
    Rests t.client (t.call (deliver event)) := by
  have hclosed : t.client.socket = false := Bool.eq_false_iff.mpr fun hopen => h.open_iff.mp hopen hs
  refine rests_call hs fun c' hd => ?_
  rw [deliver_closed hclosed] at hd
  cases hd
  exact ⟨hs, rfl⟩

theorem cancelled_rests (hs : c.stage = .idle) (challenge : List UInt8) {more : Bool}
    (h : resumeChallenge challenge none c = .ok (more, c')) : c'.stage = .idle ∧ written c' = written c := by
  obtain ⟨⟨⟩, c₁, hfail, hpure⟩ := bind_eq_ok h
  cases hpure
  cases hf : c.failedAlready with
  | true =>
    rw [fail_again _ hf] at hfail
    cases hfail
    exact ⟨hs, rfl⟩
  | false =>
    rw [fail_apply _ hf] at hfail
    cases hfail
    refine ⟨rfl, ?_⟩
    simp [written, VncClient.failed, Event.isWrite]

theorem rests_occur {t : GuiThread E} {o : Occurrence} (h : Linked t.client) (hin : InTime t o) (hs : t.client.stage = .idle)
    (hno : ∀ password, o ≠ .connectToHost password) : Rests t.client (t.occur o) := by
  cases o with
  | connectToHost password => exact absurd rfl (hno password)
  | close =>
    refine rests_call hs fun c' hc => ?_
    cases hc
    exact ⟨rfl, rfl⟩
  | readyRead chunk =>
    have hclosed : t.client.socket = false := Bool.eq_false_iff.mpr fun hopen => h.open_iff.mp hopen hs
    simp only [GuiThread.occur, hclosed, Bool.false_eq_true, and_false, if_false]
    exact rests_self hs
  | disconnected => exact rests_deliver h hs _
  | errorOccurred remoteHostClosed message => exact rests_deliver h hs _
  | round =>
    simp only [GuiThread.occur]
    split
    · unfold GuiThread.round
      rw [if_pos hs]
      intro t' ht
      cases ht
      exact ⟨hs, rfl⟩
    · exact rests_self hs
  | answer entered =>
    simp only [GuiThread.occur]
    split
    · rename_i challenge outer hasks
      cases entered with
      | some password => exact absurd hs (hin _ _ password hasks rfl)
      | none =>
        intro t' ht
        cases hr : resumeChallenge challenge none t.client with
        | error f =>
          rw [hr] at ht
          cases ht
        | ok p =>
          rw [hr] at ht
          cases ht
          exact cancelled_rests hs challenge hr
    · exact rests_self hs

/-- A password that comes too late is written to a socket that is gone. -/
theorem late_nullSocket (h : Linked c) (hs : c.stage = .idle) (challenge : List UInt8) (password : String) :
    resumeChallenge challenge (some password) c = .error .nullSocket := by
  have hclosed : c.socket = false := Bool.eq_false_iff.mpr fun hopen => h.open_iff.mp hopen hs
  have hwrite : write (encryptChallenge E challenge password) { c with password := password } = .error .nullSocket := by
    unfold write
    rw [if_neg (by simp [hclosed])]
  exact (bind_of_ok (modify_apply _ _)).trans (bind_of_error hwrite)

/-- The client when it has been constructed, and no call is in progress. -/
def GuiThread.new (E : Env) (provider : Option (Option String)) (encodings : List Int) : GuiThread E :=
  ⟨.new E provider encodings, []⟩

theorem linked_new (E : Env) (provider : Option (Option String)) (encodings : List Int) :
    Linked (GuiThread.new E provider encodings).client :=
  ⟨by simp [GuiThread.new, VncClient.new], nofun, nofun⟩

/-- As long as passwords have been entered in time, idle means idle, until one comes too late. -/
theorem idle_means_idle_iff {provider : Option (Option String)} {encodings : List Int} {t : GuiThread E}
    (h : CameAbout InTime (.new E provider encodings) t) (o : Occurrence) : IdleMeansIdle t o ↔ InTime t o := by
  have hlinked := h.linked (linked_new E provider encodings)
  constructor
  · rintro hclaim challenge outer password hasks rfl hs
    refine hclaim.noNullSocket ?_
    simp only [GuiThread.occur, hasks, late_nullSocket hlinked hs]
    rfl
  · intro hin
    refine ⟨hlinked.open_iff.mpr, hlinked.failed, fun hwaits t' ht => ?_, fun hnull => ?_, rests_occur hlinked hin⟩
    · simp only [GuiThread.occur, GuiThread.call, if_pos hwaits] at ht
      cases ht
      rfl
    · have hsound := linked_occur hlinked hin
      rw [hnull] at hsound
      exact hsound rfl

/-! ## The dialog -/

def occurAll : List Occurrence → GuiThread E → Except Fault (GuiThread E)
  | [], t => .ok t
  | o :: os, t =>
    match t.occur o with
    | .ok t' => occurAll os t'
    | .error f => .error f

theorem cameAbout_of_occurAll {P : GuiThread E → Occurrence → Prop} {t₀ t t' : GuiThread E} {os : List Occurrence}
    (h : CameAbout P t₀ t) (hP : ∀ o ∈ os, ∀ t, P t o) (hos : occurAll os t = .ok t') : CameAbout P t₀ t' := by
  induction os generalizing t with
  | nil =>
    cases hos
    exact h
  | cons o os ih =>
    unfold occurAll at hos
    split at hos
    · rename_i t₁ ho
      exact ih (h.occur (hP o List.mem_cons_self t) ho) (fun o ho => hP o (List.mem_cons_of_mem _ ho)) hos
    · cases hos

theorem inTime_of_ne (t : GuiThread E) {o : Occurrence} (h : ∀ entered, o ≠ .answer entered) : InTime t o :=
  fun _ _ _ _ he => absurd he (h _)

/-- The thread a list of occurrences leads to. -/
def threadAfter (os : List Occurrence) : GuiThread .bare :=
  match occurAll os (.new .bare (some none) []) with
  | .ok t => t
  | .error _ => .new .bare (some none) []

theorem occurAll_threadAfter {os : List Occurrence} (h : (occurAll os (.new .bare (some none) [])).isOk = true) :
    occurAll os (.new .bare (some none) []) = .ok (threadAfter os) := by
  unfold threadAfter
  cases hr : occurAll os (.new .bare (some none) []) with
  | ok t => rfl
  | error f =>
    rw [hr] at h
    cases h

/-- A server that wants a password, up to the dialog. -/
def dialog : List Occurrence :=
  [.connectToHost "", .readyRead (version38 ++ [1, 2] ++ List.replicate 16 0), .round, .round, .round]

theorem cameAbout_dialog : CameAbout InTime (.new .bare (some none) []) (threadAfter dialog) := by
  refine cameAbout_of_occurAll .start (fun o ho t => inTime_of_ne t fun entered he => ?_) (occurAll_threadAfter (by decide +kernel))
  subst he
  simp [dialog] at ho

/-- The password is entered while the server waits for it. -/
theorem idle_means_idle_iff_dialog :
    IdleMeansIdle (threadAfter dialog) (.answer (some "secret")) ↔ InTime (threadAfter dialog) (.answer (some "secret")) :=
  idle_means_idle_iff cameAbout_dialog _

/-- The connection is closed while the dialog is open, and then the password is entered. -/
theorem closed_dialog_writes : ¬ ∀ t : GuiThread .bare, CameAbout (fun _ _ => True) (.new .bare (some none) []) t →
    ∀ o, IdleMeansIdle t o := by
  intro hclaim
  have hclosed : CameAbout (fun _ _ => True) (.new .bare (some none) []) (threadAfter (dialog ++ [.close])) :=
    cameAbout_of_occurAll .start (fun _ _ _ => trivial) (occurAll_threadAfter (by decide +kernel))
  have hlate := (hclaim _ hclosed (.answer (some "secret"))).noNullSocket
  have hfault : (match (threadAfter (dialog ++ [.close])).occur (.answer (some "secret")) with
      | .error f => decide (f = .nullSocket)
      | .ok _ => false) = true := by decide +kernel
  split at hfault
  · rename_i f hf
    rw [hf, of_decide_eq_true hfault] at hlate
    exact hlate rfl
  · cases hfault

end LvdTerm.Vnc
