import LvdTerm.Vnc.UpdateSteps
import LvdTerm.Vnc.Chunks

/-!
# VNC client: everything that happens to a connection

A run is taken apart into moves: data arrives, a step is made, the socket closes or reports an error.
What every move keeps holds at every moment of every run, between two steps of one chunk too.
-/
namespace LvdTerm.Vnc

open Lib Lib.Action Lib.Frame

variable {E : Env} {c c' : VncClient E}

/-! ## Steps of the handshake -/

/-- What the client answers after the version. -/
inductive Answer (E : Env) : List UInt8 → Prop where
  | none : Answer E [1]
  | vncAuth : Answer E [2]
  | response (challenge : List UInt8) (password : String) : Answer E (encryptChallenge E challenge password)

/-- The reply to the server's version. -/
def versionReply (minor : Nat) : List UInt8 := ascii "RFB 003.00" ++ ascii (toString minor) ++ [10]

/-- The client once it has read `ServerInit`. -/
def started (width height : Nat) (buf : List UInt8) (name : String) (c : VncClient E) : VncClient E :=
  { c with
    buf := buf
    desktopName := name
    work := .black width height
    fb := .black width height
    stage := .running
    events := c.events ++ [.write (setPixelFormat ++ setEncodings (if c.encodings = [] then defaultEncodings else c.encodings))]
      ++ [.write (updateRequest false width height)] ++ [.ready] }

/-- What one step of the handshake does. -/
inductive HandshakeStep (c : VncClient E) : Bool → VncClient E → Prop where
  | wait : HandshakeStep c false c
  | failed (done : Bool) (buf : List UInt8) (securityType : Nat) (name message : String) :
      HandshakeStep c done (VncClient.failed message { c with buf := buf, securityType := securityType, desktopName := name })
  | version (hs : c.stage = .version) (buf : List UInt8) (major minor : Int) :
      HandshakeStep c true
        { c with buf := buf, minor := negotiatedMinor major minor c.maxMinor, stage := .securityTypes,
                 events := c.events ++ [.write (versionReply (negotiatedMinor major minor c.maxMinor))] }
  | advance (hs : c.stage ≠ .version) (buf : List UInt8) (securityType : Nat) (password : String) (stage : Stage)
      (hstage : stage ≠ .idle ∧ stage ≠ .version ∧ stage ≠ .securityTypes ∧ stage ≠ .running) (answers : List (List UInt8))
      (hanswers : ∀ data ∈ answers, Answer E data) :
      HandshakeStep c true
        { c with buf := buf, securityType := securityType, password := password, stage := stage,
                 events := c.events ++ answers.map .write }
  | ready (hs : c.stage = .serverInit) (width height : Nat) (hw : 0 < width ∧ width < 2 ^ 16) (hh : 0 < height ∧ height < 2 ^ 16)
      (buf : List UInt8) (name : String) : HandshakeStep c true (started width height buf name c)

/-- A failure, perhaps behind data that has been used up. -/
theorem wp_failStep_handshake (he : Early c) (message : String) (buf : List UInt8) :
    wp AnyFault (failStep message) (HandshakeStep c) { c with buf := buf } :=
  wp_failStep he.failed (.failed false buf c.securityType c.desktopName message)

theorem stepVersion_cases (he : Early c) (hs : c.stage = .version) : wp AnyFault stepVersion (HandshakeStep c) c := by
  unfold stepVersion setStage
  refine wp_need .wait fun hlen => ?_
  simp only [wp_bind]
  refine wp_bytes (by omega) fun magic _ => wp_ite (fun _ => wp_failStep_handshake he _ _) (fun _ => ?_)
  simp only [wp_bind]
  refine wp_bytes (by omega) fun major _ => wp_bytes (by omega) fun minor _ => any_consume ?_
  simp only [wp_modify, wp_gets, wp_pure]
  exact wp_write he.socket (.version hs _ _ _)

/-- An answer of one message, or none. -/
theorem HandshakeStep.answer (hs : c.stage ≠ .version) (buf : List UInt8) (securityType : Nat) (stage : Stage)
    (hstage : stage ≠ .idle ∧ stage ≠ .version ∧ stage ≠ .securityTypes ∧ stage ≠ .running) {data : List UInt8}
    (hdata : Answer E data) : HandshakeStep c true
      { c with buf := buf, securityType := securityType, stage := stage, events := c.events ++ [.write data] } := by
  refine .advance hs buf securityType c.password stage hstage [data] fun d hd => ?_
  rwa [List.mem_singleton.mp hd]

theorem HandshakeStep.silent (hs : c.stage ≠ .version) (buf : List UInt8) (securityType : Nat) (stage : Stage)
    (hstage : stage ≠ .idle ∧ stage ≠ .version ∧ stage ≠ .securityTypes ∧ stage ≠ .running) : HandshakeStep c true
      { c with buf := buf, securityType := securityType, stage := stage } := by
  have hstep := HandshakeStep.advance hs buf securityType c.password stage hstage [] (by simp)
  rwa [List.map_nil, List.append_nil] at hstep

theorem stepSecurityType_cases (he : Early c) (hs : c.stage = .securityTypes) :
    wp AnyFault stepSecurityType (HandshakeStep c) c := by
  have hv : c.stage ≠ .version := by rw [hs]; decide
  unfold stepSecurityType beginSecurity sendClientInit setStage
  refine wp_need .wait fun hlen => ?_
  simp only [wp_bind]
  refine Inbox.ReadOnly.wp (readOnly_u32 _) fun type => any_consume (wp_ite (fun _ => ?_) (fun _ => ?_))
  · exact .silent hv _ _ _ (by decide)
  · simp only [wp_bind, wp_modify, wp_gets, wp_pure]
    refine wp_ite (fun _ => wp_ite (fun _ => .silent hv _ _ _ (by decide)) (fun _ => ?_)) (fun _ => ?_)
    · simp only [wp_bind, wp_modify]
      exact wp_write he.socket (.answer hv _ _ _ (by decide) .none)
    · exact wp_ite (fun _ => .silent hv _ _ _ (by decide)) (fun _ => wp_fail he.failed (.failed true _ _ _ _))

theorem stepSecurityList_cases (he : Early c) (hs : c.stage = .securityTypes) :
    wp AnyFault stepSecurityList (HandshakeStep c) c := by
  have hv : c.stage ≠ .version := by rw [hs]; decide
  unfold stepSecurityList
  refine wp_need .wait fun hlen => ?_
  simp only [wp_bind]
  refine Inbox.ReadOnly.wp (readOnly_u8 _) fun count => wp_ite (fun _ => ?_) (fun _ => wp_need .wait fun hlen' => ?_)
  · simp only [wp_bind, setStage, wp_modify, wp_pure]
    exact any_consume (.silent hv _ _ _ (by decide))
  · simp only [wp_bind]
    refine wp_bytes (by omega) fun types _ => any_consume (wp_ite (fun _ => wp_failStep_handshake he _ _) (fun _ => ?_))
    simp only [wp_bind]
    refine wp_write he.socket ?_
    have hnone {stage : Stage} (hstage : stage ≠ .idle ∧ stage ≠ .version ∧ stage ≠ .securityTypes ∧ stage ≠ .running)
        (buf : List UInt8) (securityType : Nat) {chosen : UInt8} (hchosen : Answer E [chosen]) :=
      HandshakeStep.answer hv buf securityType stage hstage hchosen
    by_cases h1 : types.contains 1 = true
    · rw [if_pos h1]
      unfold beginSecurity sendClientInit setStage
      simp only [wp_bind, wp_modify, wp_gets, wp_pure]
      rw [if_pos (by decide)]
      refine wp_ite (fun _ => hnone (by decide) _ _ .none) (fun _ => ?_)
      simp only [wp_bind, wp_modify]
      refine wp_write he.socket ?_
      have hstep := HandshakeStep.advance hv (c.buf.drop (1 + count.toNat)) 1 c.password .serverInit (by decide) [[1], [1]]
        (fun d hd => by simp at hd; rw [hd]; exact .none)
      simpa using hstep
    · rw [if_neg h1]
      unfold beginSecurity setStage
      simp only [wp_bind, wp_modify, wp_gets, wp_pure]
      rw [if_neg (by decide), if_pos (by decide)]
      exact hnone (by decide) _ _ .vncAuth

theorem stepAuthChallenge_cases (he : Early c) (hs : c.stage = .authChallenge) :
    wp AnyFault stepAuthChallenge (HandshakeStep c) c := by
  have hv : c.stage ≠ .version := by rw [hs]; decide
  unfold stepAuthChallenge
  refine wp_need .wait fun hlen => ?_
  simp only [wp_bind]
  refine wp_bytes (by omega) fun challenge _ => any_consume (wp_obtainPassword ?_ fun password => ?_)
  · exact wp_ite (fun _ => wp_failStep_handshake he _ _) (fun h => absurd rfl h)
  · refine wp_ite (fun h => by cases h) (fun _ => ?_)
    simp only [wp_bind, wp_gets, setStage, wp_modify, wp_pure]
    refine wp_write he.socket ?_
    refine .advance hv _ c.securityType password _ (by decide) [encryptChallenge E challenge password] fun d hd => ?_
    rw [List.mem_singleton.mp hd]
    exact .response challenge password

theorem stepSecurityResult_cases (he : Early c) (hs : c.stage = .securityResult) :
    wp AnyFault stepSecurityResult (HandshakeStep c) c := by
  have hv : c.stage ≠ .version := by rw [hs]; decide
  unfold stepSecurityResult sendClientInit setStage
  refine wp_need .wait fun hlen => ?_
  simp only [wp_bind]
  refine Inbox.ReadOnly.wp (readOnly_u32 _) fun result => any_consume ?_
  refine wp_ite (fun _ => ?_) (fun _ => wp_ite (fun _ => ?_) (fun _ => wp_failStep_handshake he _ _))
  · simp only [wp_bind]
    exact wp_write he.socket (.answer hv _ _ _ (by decide) .none)
  · exact .silent hv _ _ _ (by decide)

theorem stepSecurityReason_cases (he : Early c) : wp AnyFault stepSecurityReason (HandshakeStep c) c := by
  unfold stepSecurityReason
  refine wp_need .wait fun hlen => ?_
  simp only [wp_bind]
  refine Inbox.ReadOnly.wp (readOnly_u32 _) fun length => wp_ite (fun _ => wp_failStep_handshake he _ _) (fun _ => ?_)
  refine wp_need .wait fun hlen' => ?_
  simp only [wp_bind]
  exact wp_bytes hlen' fun data _ => any_consume (wp_failStep_handshake he _ _)

theorem stepServerInit_cases (he : Early c) (hs : c.stage = .serverInit) :
    wp AnyFault stepServerInit (HandshakeStep c) c := by
  unfold stepServerInit
  refine wp_need .wait fun hlen => ?_
  simp only [wp_bind]
  refine Inbox.ReadOnly.wp (readOnly_u32 _) fun nameLength => wp_ite (fun _ => wp_failStep_handshake he _ _) (fun _ => ?_)
  refine wp_need .wait fun hlen' => ?_
  simp only [wp_bind]
  refine wp_u16 (by omega) fun width hw => wp_u16 (by omega) fun height hh => ?_
  refine wp_bytes hlen' fun name _ => any_consume (wp_ite (fun _ => ?_) (fun hsize => ?_))
  · exact wp_failStep he.failed (.failed false _ _ _ _)
  · have hw0 : 0 < width := Nat.pos_of_ne_zero fun h0 => hsize (.inl h0)
    have hh0 : 0 < height := Nat.pos_of_ne_zero fun h0 => hsize (.inr h0)
    have hnull : (Image.black width height).isNull = false := by
      simp only [Image.isNull, Image.black]
      exact decide_eq_false (by omega)
    simp only [wp_bind, allocFramebuffer, sendPixelFormatAndEncodings, setStage, emit, wp_modify, wp_gets, wp_pure]
    refine wp_write he.socket ?_
    unfold requestUpdate
    simp only [wp_bind, wp_gets]
    refine wp_ite (fun hno => ?_) (fun _ => wp_write he.socket (.ready hs width height ⟨hw0, hw⟩ ⟨hh0, hh⟩ _ _))
    simp [he.socket, hnull] at hno

theorem step_handshake_cases {done : Bool} (h : Inv c) (hidle : c.stage ≠ .idle) (hrun : c.stage ≠ .running)
    (hstep : step c = .ok (done, c')) : HandshakeStep c done c' := by
  have he := h.early_of hrun hidle
  have hwp : wp AnyFault step (HandshakeStep c) c := by
    unfold step
    simp only [wp_bind, wp_gets]
    cases hs : c.stage with
    | idle => exact absurd hs hidle
    | version => exact stepVersion_cases he hs
    | securityTypes =>
      unfold stepOf stepSecurityTypes
      simp only [wp_bind, wp_gets]
      exact wp_ite (fun _ => stepSecurityType_cases he hs) (fun _ => stepSecurityList_cases he hs)
    | authChallenge => exact stepAuthChallenge_cases he hs
    | securityResult => exact stepSecurityResult_cases he hs
    | securityReason => exact stepSecurityReason_cases he
    | serverInit => exact stepServerInit_cases he hs
    | running => exact absurd hs hrun
  have hcases := wp_ok hwp hstep
  exact hcases

/-! ## The socket goes away -/

/-- What `onSocketClosed` and the handler of `errorOccurred` do. -/
inductive SocketStep (c : VncClient E) : VncClient E → Prop where
  | ignored : SocketStep c c
  | ended (hs : c.stage = .running) :
      SocketStep c { c with stage := .idle, socket := false, events := c.events ++ [.closed] }
  | failed (hidle : c.stage ≠ .idle) (message : String) : SocketStep c (c.failed message)
  | retried (hs : c.stage = .securityTypes) (hbuf : c.buf = []) (hminor : 3 < c.minor) :
      SocketStep c { c with maxMinor := if c.minor ≥ 8 then 7 else 3, failedAlready := false, buf := [], stage := .version,
                            socket := true }

/-- `if (retryOlderProtocol()) return;` in front of a failure. -/
theorem wp_retryOrFail {message : String} (hidle : c.stage ≠ .idle) (hf : c.failedAlready = false) :
    wp AnyFault (retryOlderProtocol >>= fun retried => if retried then pure () else fail message)
      (fun _ => SocketStep c) c := by
  unfold retryOlderProtocol
  simp only [wp_bind, wp_gets]
  refine wp_ite (fun _ => ?_) (fun hretry => ?_)
  · simp only [wp_pure, Bool.false_eq_true, if_false]
    exact wp_fail hf (.failed hidle message)
  · simp only [wp_bind, wp_modify, wp_pure, startConnection, close, if_true]
    exact .retried (by_contra fun hs => hretry (.inl hs)) (by_contra fun hb => hretry (.inr (.inl hb))) (by omega)

theorem onSocketClosed_cases (h : Inv c) (hc : onSocketClosed c = .ok ((), c')) : SocketStep c c' := by
  have hwp : wp AnyFault onSocketClosed (fun _ => SocketStep c) c := by
    unfold onSocketClosed
    rw [wp_bind, wp_gets]
    refine wp_ite (fun _ => .ignored) (fun hidle => wp_ite (fun hs => ?_) (fun _ => ?_))
    · simp only [wp_bind, close, emit, wp_modify]
      exact .ended hs
    · exact wp_retryOrFail hidle (h.live hidle).2
  have hcases := wp_ok hwp hc
  exact hcases

theorem onSocketError_cases {remoteHostClosed : Bool} {message : String} (h : Inv c)
    (hc : onSocketError remoteHostClosed message c = .ok ((), c')) : SocketStep c c' := by
  have hwp : wp AnyFault (onSocketError remoteHostClosed message) (fun _ => SocketStep c) c := by
    unfold onSocketError
    rw [wp_bind, wp_gets]
    refine wp_ite (fun _ => .ignored) (fun hidle => ?_)
    refine wp_ite (fun _ => wp_fail (h.live hidle).2 (.failed hidle message)) (fun _ => wp_ite (fun _ => .ignored) (fun _ => ?_))
    exact wp_retryOrFail hidle (h.live hidle).2
  have hcases := wp_ok hwp hc
  exact hcases

/-! ## Moves -/

/-- What a step did, as far as the session's user can tell. -/
inductive Mark where
  | began (work : Image)
  | completed (encoding : Int)
  | updated (work : Image)

/-- The session has begun, a rectangle is complete, an update is finished. -/
def stepMarks (c : VncClient E) (done : Bool) (c' : VncClient E) : List Mark :=
  (if c.stage ≠ .running ∧ c'.stage = .running then [.began c'.work] else []) ++
    (if c.stage = .running ∧ rectDue c = true ∧ done = true then [.completed c'.encoding] else []) ++
    (if c.updates < c'.updates then [.updated c'.work] else [])

/-- One thing that happens to a client. -/
inductive Move (c : VncClient E) : List Mark → VncClient E → Prop where
  | arrive (chunk : List UInt8) (hsocket : c.socket = true) : Move c [] (appendChunk chunk c)
  | step {done : Bool} {c' : VncClient E} (hidle : c.stage ≠ .idle) (hbuf : c.buf.length < 2 ^ 31)
      (h : step c = .ok (done, c')) : Move c (stepMarks c done c') c'
  | closed {c' : VncClient E} (hsocket : c.socket = true) (h : onSocketClosed c = .ok ((), c')) : Move c [] c'
  | error {c' : VncClient E} (remoteHostClosed : Bool) (message : String) (hsocket : c.socket = true)
      (h : onSocketError remoteHostClosed message c = .ok ((), c')) : Move c [] c'

/-- From `c₀` on, with what the steps did. -/
inductive Moves (c₀ : VncClient E) : List Mark → VncClient E → Prop where
  | refl : Moves c₀ [] c₀
  | tail {marks new : List Mark} {c c' : VncClient E} (h : Moves c₀ marks c) (hm : Move c new c') :
      Moves c₀ (marks ++ new) c'

/-- The same, with `P` before every move. -/
inductive MovesUnder (P : VncClient E → Prop) (c₀ : VncClient E) : List Mark → VncClient E → Prop where
  | refl : MovesUnder P c₀ [] c₀
  | tail {marks new : List Mark} {c c' : VncClient E} (h : MovesUnder P c₀ marks c) (hP : P c) (hm : Move c new c') :
      MovesUnder P c₀ (marks ++ new) c'

theorem Moves.single {marks : List Mark} (hm : Move c marks c') : Moves c marks c' := by
  have h := Moves.tail .refl hm
  rwa [List.nil_append] at h

theorem Moves.trans {c₀ : VncClient E} {marks new : List Mark} (h : Moves c₀ marks c) (h' : Moves c new c') :
    Moves c₀ (marks ++ new) c' := by
  induction h' with
  | refl => rwa [List.append_nil]
  | tail _ hm ih =>
    rw [← List.append_assoc]
    exact ih.tail hm

theorem MovesUnder.moves {P : VncClient E → Prop} {c₀ : VncClient E} {marks : List Mark} (h : MovesUnder P c₀ marks c) :
    Moves c₀ marks c := by
  induction h with
  | refl => exact .refl
  | tail _ _ hm ih => exact ih.tail hm

theorem Moves.under {c₀ : VncClient E} {marks : List Mark} (h : Moves c₀ marks c) : MovesUnder (fun _ => True) c₀ marks c := by
  induction h with
  | refl => exact .refl
  | tail _ hm ih => exact ih.tail trivial hm

theorem Move.inv {marks : List Mark} (h : Inv c) (hm : Move c marks c') : Inv c' := by
  cases hm with
  | arrive chunk _ => exact inv_append h chunk
  | step _ hbuf hs => exact (step_keeps h hbuf hs).1
  | closed _ hc => exact wp_ok (onSocketClosed_inv (F := AnyFault) h) hc
  | error _ _ _ he => exact wp_ok (onSocketError_inv (F := AnyFault) h) he

theorem Moves.inv {marks : List Mark} (h : Inv c) (hm : Moves c marks c') : Inv c' := by
  induction hm with
  | refl => exact h
  | tail _ hm ih => exact hm.inv ih

theorem stepWhile_moves (fuel : Nat) (h : Inv c) (hbuf : c.buf.length < 2 ^ 31) (hr : stepWhile fuel c = .ok ((), c')) :
    ∃ marks, Moves c marks c' := by
  induction fuel generalizing c with
  | zero => cases hr; exact ⟨_, .refl⟩
  | succ fuel ih =>
    unfold stepWhile at hr
    rw [bind_of_ok (gets_apply _ _)] at hr
    by_cases hidle : c.stage = .idle
    · rw [if_pos hidle] at hr
      cases hr
      exact ⟨_, .refl⟩
    · rw [if_neg hidle] at hr
      obtain ⟨more, c₁, hs, hr⟩ := bind_eq_ok hr
      obtain ⟨h₁, hbuf₁⟩ := step_keeps h hbuf hs
      have hmoves := Moves.single (.step hidle hbuf hs)
      cases more with
      | false => cases hr; exact ⟨_, hmoves⟩
      | true =>
        obtain ⟨marks, hrest⟩ := ih h₁ hbuf₁ hr
        exact ⟨_, hmoves.trans hrest⟩

theorem deliver_moves {event : SocketEvent} (h : Inv c) (hd : deliver event c = .ok ((), c')) : ∃ marks, Moves c marks c' := by
  unfold deliver at hd
  rw [bind_of_ok (gets_apply _ _)] at hd
  by_cases hsocket : c.socket = true
  · rw [if_pos hsocket] at hd
    cases event with
    | disconnected => exact ⟨_, .single (.closed hsocket hd)⟩
    | errorOccurred remoteHostClosed message => exact ⟨_, .single (.error remoteHostClosed message hsocket hd)⟩
    | readyRead chunk =>
      unfold handle onReadyRead at hd
      simp only at hd
      split at hd
      · rename_i hbuf
        obtain ⟨marks, hmoves⟩ := stepWhile_moves _ (inv_append h chunk) hbuf hd
        exact ⟨_, (Moves.single (.arrive chunk hsocket)).trans hmoves⟩
      · cases hd
  · rw [if_neg hsocket] at hd
    cases hd
    exact ⟨_, .refl⟩

/-- A run is made of moves. -/
theorem run_moves (events : List SocketEvent) (h : Inv c) (hr : run events c = .ok ((), c')) : ∃ marks, Moves c marks c' := by
  induction events generalizing c with
  | nil => cases hr; exact ⟨_, .refl⟩
  | cons event events ih =>
    obtain ⟨⟨⟩, c₁, hd, hr⟩ := bind_eq_ok hr
    obtain ⟨marks, hmoves⟩ := deliver_moves h hd
    obtain ⟨marks', hrest⟩ := ih (hmoves.inv h) hr
    exact ⟨_, hmoves.trans hrest⟩

/-- What every move keeps holds at every moment of a run. -/
theorem moves_keep {P : List Mark → VncClient E → Prop} {c₀ : VncClient E} {marks : List Mark}
    (hP : ∀ marks new c c', Inv c → P marks c → Move c new c' → P (marks ++ new) c') (h : Inv c₀) (h₀ : P [] c₀)
    (hm : Moves c₀ marks c) : P marks c := by
  induction hm with
  | refl => exact h₀
  | tail hprev hm ih => exact hP _ _ _ _ (hprev.inv h) ih hm

/-! ### What a move does -/

/-- A move by its effect. -/
inductive Effect (c : VncClient E) : List Mark → VncClient E → Prop where
  | arrive (chunk : List UInt8) : Effect c [] (appendChunk chunk c)
  | socket {c' : VncClient E} (h : SocketStep c c') : Effect c [] c'
  | handshake {done : Bool} {c' : VncClient E} (hs : c.stage ≠ .idle ∧ c.stage ≠ .running) (h : HandshakeStep c done c') :
      Effect c (stepMarks c done c') c'
  | running {done : Bool} {c' : VncClient E} (hs : c.stage = .running) (h : RunningStep c done c') :
      Effect c (stepMarks c done c') c'

theorem Move.effect {marks : List Mark} (h : Inv c) (hm : Move c marks c') : Effect c marks c' := by
  cases hm with
  | arrive chunk _ => exact .arrive chunk
  | closed _ hc => exact .socket (onSocketClosed_cases h hc)
  | error _ _ _ he => exact .socket (onSocketError_cases h he)
  | step hidle hbuf hs =>
    by_cases hrun : c.stage = .running
    · exact .running hrun (stepRunning_cases h hrun hs)
    · exact .handshake ⟨hidle, hrun⟩ (step_handshake_cases h hidle hrun hs)

/-! ### The marks of a step -/

section Marks

variable {done : Bool}

theorem stepMarks_quiet (hs : c.stage = .running) (hno : rectDue c = false ∨ done = false) (hup : c'.updates = c.updates) :
    stepMarks c done c' = [] := by
  have hrect : ¬ (c.stage = .running ∧ rectDue c = true ∧ done = true) := by
    rintro ⟨-, hdue, hdone⟩
    rcases hno with hno | hno
    · rw [hdue] at hno
      cases hno
    · rw [hdone] at hno
      cases hno
  rw [stepMarks, if_neg fun h => h.1 hs, if_neg hrect, if_neg (by omega)]
  rfl

theorem stepMarks_handshake (hs : c.stage ≠ .running) (hs' : c'.stage ≠ .running) (hup : c'.updates = c.updates) :
    stepMarks c done c' = [] := by
  rw [stepMarks, if_neg fun h => hs' h.2, if_neg fun h => hs h.1, if_neg (by omega)]
  rfl

theorem stepMarks_ready (hs : c.stage ≠ .running) (width height : Nat) (buf : List UInt8) (name : String) :
    stepMarks c done (started width height buf name c) = [.began (.black width height)] := by
  have hup : ¬ c.updates < (started width height buf name c).updates := Nat.lt_irrefl _
  rw [stepMarks, if_pos ⟨hs, rfl⟩, if_neg fun h => hs h.1, if_neg hup]
  rfl

theorem stepMarks_emptyUpdate (hs : c.stage = .running) (hheader : Header 0 c) :
    stepMarks c done (finished (announced 0 c)) = [.updated c.work] := by
  have hrect : ¬ (c.stage = .running ∧ rectDue c = true ∧ done = true) := by
    rw [hheader.due]
    rintro ⟨-, hdue, -⟩
    cases hdue
  have hup : c.updates < (finished (announced 0 c)).updates := Nat.lt_succ_self _
  rw [stepMarks, if_neg fun h => h.1 hs, if_neg hrect, if_pos hup]
  rfl

theorem stepMarks_rect {c₂ : VncClient E} (hs : c.stage = .running) (hdue : rectDue c = true) (hup : c₂.updates = c.updates) :
    stepMarks c true (rectFinished c₂) = .completed c₂.encoding :: if lastOfUpdate c₂ then [.updated c₂.work] else [] := by
  obtain ⟨mode, left, heq⟩ := counted_eq c₂
  rw [stepMarks, if_neg fun h => h.1 hs, if_pos ⟨hs, hdue, rfl⟩, rectFinished, heq]
  split
  · have hlt : c.updates < (finished { c₂ with inRect := false, lastRectMode := mode, rectsLeft := left }).updates := by
      rw [← hup]
      exact Nat.lt_succ_self _
    rw [if_pos hlt]
    rfl
  · rw [if_neg (by simp only; omega)]
    rfl

end Marks

end LvdTerm.Vnc
