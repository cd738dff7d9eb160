import LvdTerm.Vnc.Repaint

/-!
# VNC client: update requests

The server sends an update for each request. The requests are read back from what the client has
written, and compared with those its session calls for: the whole screen as it begins, and one more
for every update that is finished.
-/
namespace LvdTerm.Vnc

open Lib Lib.Action

variable {E : Env} {c c' mid : VncClient E}

/-- A FramebufferUpdateRequest: incremental or not, and the size it asks for. -/
structure Request where
  incremental : Bool
  width : Nat
  height : Nat
  deriving DecidableEq, Repr

/-- The server's reading of a message: ten bytes, the first of them 3. -/
def readRequest (data : List UInt8) : Option Request :=
  if data.head? = some 3 ∧ data.length = 10 then some ⟨data.getD 1 0 ≠ 0, be16 data 6, be16 data 8⟩ else none

def Event.request : Event → Option Request
  | .write data => readRequest data
  | _ => none

/-- The requests sent so far. -/
def requests (events : List Event) : List Request := events.filterMap Event.request

/-- The requests a session calls for, and whether its update so far has contained a DesktopSize rectangle. -/
structure Due where
  requests : List Request
  resized : Bool

/-- The first request and the one after a DesktopSize are for the whole screen. -/
def Due.next (due : Due) : Mark → Due
  | .began work => ⟨due.requests ++ [⟨false, work.width, work.height⟩], false⟩
  | .completed encoding => ⟨due.requests, due.resized || encoding = encDesktopSize⟩
  | .updated work => ⟨due.requests ++ [⟨!due.resized, work.width, work.height⟩], false⟩

def dueAfter (marks : List Mark) : Due := marks.foldl Due.next ⟨[], false⟩

/-- One request is outstanding in every session of `c₀`, and it asks for what is due. -/
structure FlowControlled (c₀ : VncClient E) : Prop where
  sent : ∀ marks c, Moves c₀ marks c → requests c.events = (dueAfter marks).requests
  outstanding : ∀ marks c, Moves c₀ marks c → c.stage = .running → (requests c.events).length = c.updates + 1

/-! ## Messages -/

theorem readRequest_updateRequest (incremental : Bool) {width height : Nat} (hw : width < 2 ^ 16) (hh : height < 2 ^ 16) :
    readRequest (updateRequest incremental width height) = some ⟨incremental, width, height⟩ := by
  have hbyte (v : Nat) (hv : v < 2 ^ 16) : (UInt8.ofNat (v / 256)).toNat * 256 + (UInt8.ofNat v).toNat = v := by
    rw [UInt8.toNat_ofNat', UInt8.toNat_ofNat']
    omega
  have hwidth : be16 (updateRequest incremental width height) 6 = width := hbyte width hw
  have hheight : be16 (updateRequest incremental width height) 8 = height := hbyte height hh
  unfold readRequest
  rw [if_pos ⟨rfl, rfl⟩, hwidth, hheight]
  cases incremental <;> rfl

theorem readRequest_of_head {data : List UInt8} {b : UInt8} (h : data.head? = some b) (hb : b ≠ 3) : readRequest data = none := by
  refine if_neg fun hrequest => hb ?_
  rw [h] at hrequest
  exact Option.some.inj hrequest.1

theorem readRequest_versionReply (minor : Nat) : readRequest (versionReply minor) = none :=
  readRequest_of_head (b := 82) rfl (by decide)

theorem readRequest_setPixelFormat (encodings : List Int) : readRequest (setPixelFormat ++ setEncodings encodings) = none :=
  readRequest_of_head (b := 0) rfl (by decide)

/-- DES makes eight bytes of eight. -/
def DesBlocks (E : Env) : Prop := ∀ key block, (E.desEncrypt key block).length = 8

theorem readRequest_answer (hdes : DesBlocks E) {data : List UInt8} (h : Answer E data) : readRequest data = none := by
  cases h with
  | none => exact readRequest_of_head (b := 1) rfl (by decide)
  | vncAuth => exact readRequest_of_head (b := 2) rfl (by decide)
  | response challenge password =>
    refine if_neg fun hrequest => ?_
    have hlength := hrequest.2
    rw [encryptChallenge, List.length_append, hdes, hdes] at hlength
    cases hlength

/-! ## Events -/

theorem requests_append (events new : List Event) : requests (events ++ new) = requests events ++ requests new :=
  List.filterMap_append

theorem requests_write {data : List UInt8} {request : Request} (h : readRequest data = some request) :
    requests [.write data] = [request] := by
  have hread : (Event.write data).request = some request := h
  rw [requests, List.filterMap_cons_some hread, List.filterMap_nil]

theorem requests_other {data : List UInt8} (h : readRequest data = none) : requests [.write data] = [] := by
  have hread : (Event.write data).request = none := h
  rw [requests, List.filterMap_cons_none hread, List.filterMap_nil]

theorem requests_answers (hdes : DesBlocks E) {answers : List (List UInt8)} (h : ∀ data ∈ answers, Answer E data) :
    requests (answers.map .write) = [] := by
  refine List.filterMap_eq_nil_iff.mpr fun event hevent => ?_
  obtain ⟨data, hdata, rfl⟩ := List.mem_map.mp hevent
  exact readRequest_answer hdes (h data hdata)

theorem Quiet.requests {events : List Event} (h : Quiet events) : requests events = [] := by
  cases h <;> rfl

theorem Ended.requests (h : Ended c c') : requests c'.events = requests c.events := by
  cases h with
  | goesOn _ _ _ he => rw [he]
  | failed message _ _ _ _ he =>
    rw [he, requests_append, requests_append]
    exact (List.append_nil _).trans (List.append_nil _)

theorem requests_finished (hsocket : mid.socket = true) (hscreen : Screen mid) :
    requests (finished mid).events = requests mid.events ++ [⟨!mid.resized, mid.work.width, mid.work.height⟩] := by
  have hw := hscreen.width_pos
  have hh := hscreen.height_pos
  have hsent : requestEvents (!mid.resized) mid = [.write (updateRequest (!mid.resized) mid.work.width mid.work.height)] := by
    refine if_neg fun hno => ?_
    rw [hsocket] at hno
    have hnull := of_decide_eq_true hno
    omega
  have hquiet : requests (if (toShow mid).isValid then [.framebufferChanged (toShow mid)] else []) = [] := by
    split <;> rfl
  have hread := readRequest_updateRequest (!mid.resized) hscreen.width_lt hscreen.height_lt
  simp only [finished, requests_append, hsent, hquiet, List.append_nil]
  rw [requests_write hread]

/-! ## What is due -/

theorem dueAfter_append (marks new : List Mark) : dueAfter (marks ++ new) = new.foldl Due.next (dueAfter marks) :=
  List.foldl_append

/-- What was sent is what was due. -/
structure Flow (marks : List Mark) (c : VncClient E) : Prop where
  sent : requests c.events = (dueAfter marks).requests
  resized : c.resized = (dueAfter marks).resized
  early : c.stage ≠ .idle → c.stage ≠ .running → c.updates = 0 ∧ dueAfter marks = ⟨[], false⟩
  count : c.stage = .running → (dueAfter marks).requests.length = c.updates + 1

section Flow

variable {marks : List Mark}

/-- The stage, the updates and the requests are as before, or the session is over. -/
theorem Flow.still (h : Flow marks c) (hrequests : requests c'.events = requests c.events) (hresized : c'.resized = c.resized)
    (hstage : c'.stage = .idle ∨ c'.stage = c.stage ∧ c'.updates = c.updates) : Flow marks c' := by
  refine ⟨hrequests.trans h.sent, hresized.trans h.resized, fun hidle hrun => ?_, fun hrun => ?_⟩
  · rcases hstage with hs | ⟨hs, hup⟩
    · exact absurd hs hidle
    · rw [hs] at hidle hrun
      rw [hup]
      exact h.early hidle hrun
  · rcases hstage with hs | ⟨hs, hup⟩
    · rw [hs] at hrun
      cases hrun
    · rw [hs] at hrun
      rw [hup]
      exact h.count hrun

/-- The handshake has moved on, with answers that are no requests. -/
theorem Flow.handshake (h : Flow marks c) (hs : c.stage ≠ .idle ∧ c.stage ≠ .running) (hs' : c'.stage ≠ .running)
    (hrequests : requests c'.events = requests c.events) (hresized : c'.resized = c.resized) (hup : c'.updates = c.updates) :
    Flow marks c' := by
  refine ⟨hrequests.trans h.sent, hresized.trans h.resized, fun _ _ => ?_, fun hrun => absurd hrun hs'⟩
  rw [hup]
  exact h.early hs.1 hs.2

/-- The session begins. -/
theorem Flow.began (h : Flow marks c) (hs : c.stage ≠ .idle ∧ c.stage ≠ .running) {width height : Nat} (hw : width < 2 ^ 16)
    (hh : height < 2 ^ 16) (buf : List UInt8) (name : String) :
    Flow (marks ++ [.began (.black width height)]) (started width height buf name c) := by
  obtain ⟨hzero, hnone⟩ := h.early hs.1 hs.2
  have hdue : dueAfter (marks ++ [.began (.black width height)]) = ⟨[⟨false, width, height⟩], false⟩ := by
    rw [dueAfter_append, hnone]
    rfl
  have hsent : requests (started width height buf name c).events = [⟨false, width, height⟩] := by
    have hbefore : requests c.events = [] := by
      rw [h.sent, hnone]
    have hread := readRequest_updateRequest false hw hh
    have hencodings := readRequest_setPixelFormat (if c.encodings = [] then defaultEncodings else c.encodings)
    simp only [started, requests_append, hbefore]
    rw [requests_write hread, requests_other hencodings]
    rfl
  refine ⟨by rw [hsent, hdue], ?_, fun _ hno => absurd rfl hno, fun _ => ?_⟩
  · rw [hdue]
    exact h.resized.trans (by rw [hnone])
  · rw [hdue]
    exact congrArg (· + 1) hzero.symm

/-- A rectangle is complete. -/
theorem Flow.completed (h : Flow marks c) (hs : c.stage = .running) {encoding : Int} (hrequests : requests c'.events = requests c.events)
    (hresized : c'.resized = (c.resized || encoding = encDesktopSize)) (hs' : c'.stage = .running) (hup : c'.updates = c.updates) :
    Flow (marks ++ [.completed encoding]) c' := by
  have hdue : dueAfter (marks ++ [.completed encoding]) =
      ⟨(dueAfter marks).requests, (dueAfter marks).resized || encoding = encDesktopSize⟩ := dueAfter_append marks [.completed encoding]
  refine ⟨?_, ?_, fun _ hno => absurd hs' hno, fun _ => ?_⟩
  · rw [hdue, hrequests]
    exact h.sent
  · rw [hdue, hresized, h.resized]
  · rw [hdue, hup]
    exact h.count hs

/-- An update is finished. -/
theorem Flow.finished (h : Flow marks mid) (hl : Live mid) : Flow (marks ++ [.updated mid.work]) (finished mid) := by
  have hdue : dueAfter (marks ++ [.updated mid.work]) =
      ⟨(dueAfter marks).requests ++ [⟨!(dueAfter marks).resized, mid.work.width, mid.work.height⟩], false⟩ :=
    dueAfter_append marks [.updated mid.work]
  refine ⟨?_, ?_, fun _ hno => absurd hl.stage hno, fun _ => ?_⟩
  · rw [hdue, requests_finished hl.socket hl.screen, h.sent, h.resized]
  · rw [hdue]
    rfl
  · rw [hdue, List.length_append]
    exact congrArg (· + 1) (h.count hl.stage)

/-- A rectangle is complete, and the update perhaps with it. -/
theorem Flow.rectFinished {c₂ : VncClient E} (h : Flow (marks ++ [.completed c₂.encoding]) c₂) (hl : Live c₂) :
    Flow (marks ++ .completed c₂.encoding :: if lastOfUpdate c₂ then [.updated c₂.work] else []) (rectFinished c₂) := by
  obtain ⟨mode, left, heq⟩ := counted_eq c₂
  have hcounted : Flow (marks ++ [.completed c₂.encoding]) (counted c₂) := by
    rw [heq]
    exact h.still rfl rfl (.inr ⟨rfl, rfl⟩)
  unfold Vnc.rectFinished
  split
  · have hlive : Live (counted c₂) := by
      rw [heq]
      exact hl.of_eq rfl rfl rfl rfl rfl
    have hfinished := hcounted.finished hlive
    rw [heq] at hfinished ⊢
    rwa [List.append_assoc] at hfinished
  · exact hcounted

end Flow

/-! ## Steps -/

section Steps

variable {marks : List Mark} {done : Bool}

/-- A step without marks. -/
theorem Flow.silent (h : Flow marks c') (hmarks : stepMarks c done c' = []) : Flow (marks ++ stepMarks c done c') c' := by
  rwa [hmarks, List.append_nil]

theorem Flow.handshakeStep (hdes : DesBlocks E) (h : Flow marks c) (hs : c.stage ≠ .idle ∧ c.stage ≠ .running)
    (hstep : HandshakeStep c done c') : Flow (marks ++ stepMarks c done c') c' := by
  cases hstep with
  | wait =>
    refine Flow.silent ?_ (stepMarks_handshake hs.2 hs.2 rfl)
    exact h
  | failed done buf securityType name message =>
    refine Flow.silent ?_ (stepMarks_handshake hs.2 (fun hrun => by cases hrun) rfl)
    refine h.still ?_ rfl (.inl rfl)
    simp only [VncClient.failed, requests_append]
    exact (List.append_nil _).trans (List.append_nil _)
  | version _ buf major minor =>
    refine Flow.silent ?_ (stepMarks_handshake hs.2 (fun hrun => by cases hrun) rfl)
    refine h.handshake hs (fun hrun => by cases hrun) ?_ rfl rfl
    rw [requests_append, requests_other (readRequest_versionReply _), List.append_nil]
  | advance _ buf securityType password stage hstage answers hanswers =>
    refine Flow.silent ?_ (stepMarks_handshake hs.2 hstage.2.2.2 rfl)
    refine h.handshake hs hstage.2.2.2 ?_ rfl rfl
    rw [requests_append, requests_answers hdes hanswers, List.append_nil]
  | ready _ width height hw hh buf name =>
    rw [stepMarks_ready hs.2]
    exact h.began hs hw.2 hh.2 buf name

theorem pendingRect_still {c₁ : VncClient E} (h : Flow marks c) (hrect : pendingRect c = some c₁) : Flow marks c₁ := by
  rcases pendingRect_cases hrect with ⟨-, rfl⟩ | ⟨-, rfl⟩
  · exact h
  · exact h.still rfl rfl (.inr ⟨rfl, rfl⟩)

theorem Flow.decoded {r : Rect} (h : Flow marks c) (hd : Decoded r c c') : Flow marks c' := by
  refine h.still hd.ended.requests hd.resized ?_
  cases hd.ended with
  | goesOn hs => exact .inr ⟨hs, hd.updates⟩
  | failed _ _ hs => exact .inl hs

theorem Flow.runningStep (h : Flow marks c) (hl : Live c) (hstep : RunningStep c done c') :
    Flow (marks ++ stepMarks c done c') c' := by
  have hs := hl.stage
  cases hstep with
  | message done buf events hother hquiet =>
    refine Flow.silent ?_ (stepMarks_quiet hs (.inl hother.due) rfl)
    refine h.still ?_ rfl (.inr ⟨rfl, rfl⟩)
    rw [requests_append, hquiet.requests, List.append_nil]
  | refused message hother =>
    refine Flow.silent ?_ (stepMarks_quiet hs (.inl hother.due) rfl)
    exact h.still (Ended.failed message hl.failed rfl rfl rfl rfl).requests rfl (.inl rfl)
  | update count hheader =>
    refine Flow.silent ?_ (stepMarks_quiet hs (.inl hheader.due) rfl)
    exact h.still rfl rfl (.inr ⟨rfl, rfl⟩)
  | emptyUpdate hheader =>
    rw [stepMarks_emptyUpdate hs hheader]
    have hannounced : Flow marks (announced 0 c) := h.still rfl rfl (.inr ⟨rfl, rfl⟩)
    exact hannounced.finished (hl.of_eq rfl rfl rfl rfl rfl)
  | noHeader =>
    refine Flow.silent ?_ (stepMarks_quiet hs (.inr rfl) rfl)
    exact h
  | outside message =>
    refine Flow.silent ?_ (stepMarks_quiet hs (.inr rfl) rfl)
    exact h.still (Ended.failed (c := c) message hl.failed rfl rfl rfl rfl).requests rfl (.inl rfl)
  | partly hdue hrect hwait hdec =>
    refine Flow.silent ?_ (stepMarks_quiet hs (.inr rfl) (hdec.updates.trans (pendingRect_updates hrect)))
    exact (pendingRect_still h hrect).decoded hdec
  | @complete c₁ c₂ hdue hrect hno hdone hdec hlive =>
    rw [stepMarks_rect hs hdue (hdec.updates.trans (pendingRect_updates hrect))]
    refine Flow.rectFinished ?_ hlive
    refine ((pendingRect_still h hrect).decoded hdec).completed hlive.stage rfl ?_ hlive.stage rfl
    rw [hdec.encoding, decide_eq_false hno, Bool.or_false]
  | @resize c₁ hdue hrect hsize hallowed hlive =>
    have hup : c₁.updates = c.updates := pendingRect_updates hrect
    have hs₁ : c₁.stage = .running := by
      rcases pendingRect_cases hrect with ⟨-, rfl⟩ | ⟨-, rfl⟩ <;> exact hs
    rw [stepMarks_rect hs hdue (by exact hup)]
    refine Flow.rectFinished ((pendingRect_still h hrect).completed hs₁ ?_ ?_ hs₁ rfl) hlive
    · exact (requests_append _ _).trans (List.append_nil _)
    · have hsize' : (desktopSized c₁).encoding = encDesktopSize := hsize
      rw [hsize', decide_eq_true rfl, Bool.or_true]
      rfl

theorem Flow.effect (hdes : DesBlocks E) (hinv : Inv c) (h : Flow marks c) {new : List Mark} (heffect : Effect c new c') :
    Flow (marks ++ new) c' := by
  cases heffect with
  | arrive chunk =>
    rw [List.append_nil]
    exact h.still rfl rfl (.inr ⟨rfl, rfl⟩)
  | handshake hs hstep => exact h.handshakeStep hdes hs hstep
  | running hs hstep => exact h.runningStep (.of_inv hinv hs) hstep
  | socket hstep =>
    rw [List.append_nil]
    cases hstep with
    | ignored => exact h
    | ended => exact h.still ((requests_append _ _).trans (List.append_nil _)) rfl (.inl rfl)
    | failed hidle message =>
      exact h.still (Ended.failed (c := c) message (hinv.live hidle).2 rfl rfl rfl rfl).requests rfl (.inl rfl)
    | retried hs =>
      exact h.handshake ⟨by rw [hs]; decide, by rw [hs]; decide⟩ (fun hrun => by cases hrun) rfl rfl rfl

end Steps

/-- In every session exactly one request is outstanding, and each is the one that is due. -/
theorem one_request_outstanding (E : Env) (provider : Option (Option String)) (encodings : List Int) (password : String)
    (hdes : DesBlocks E) : FlowControlled (.connecting E provider encodings password) := by
  have hflow (marks : List Mark) (c : VncClient E) (hm : Moves (.connecting E provider encodings password) marks c) : Flow marks c :=
    moves_keep (fun marks new c c' hinv h hmove => h.effect hdes hinv (hmove.effect hinv))
      (inv_connecting E provider encodings password) ⟨rfl, rfl, fun _ _ => ⟨rfl, rfl⟩, fun hrun => by cases hrun⟩ hm
  refine ⟨fun marks c hm => (hflow marks c hm).sent, fun marks c hm hs => ?_⟩
  rw [(hflow marks c hm).sent]
  exact (hflow marks c hm).count hs

/-- A cipher of eight-byte blocks. -/
def Env.blocks : Env := { Env.bare with desEncrypt := fun _ block => (block ++ List.replicate 8 0).take 8 }

/-- The session with the white pixel: no authentication, one update. -/
def whiteSession : VncClient .blocks :=
  left (.connecting .blocks none [] "") (run [.readyRead whitePixel] (.connecting .blocks none [] ""))

theorem one_request_outstanding_white : (requests whiteSession.events).length = whiteSession.updates + 1 := by
  have hdes : DesBlocks .blocks := by
    intro key block
    simp only [Env.blocks, List.length_take, List.length_append, List.length_replicate]
    omega
  have hrun : run [.readyRead whitePixel] (.connecting .blocks none [] "") = .ok ((), whiteSession) :=
    eq_ok_of_value _ (by decide +kernel)
  obtain ⟨marks, hmoves⟩ := run_moves _ (inv_connecting .blocks none [] "") hrun
  exact (one_request_outstanding .blocks none [] "" hdes).outstanding marks whiteSession hmoves (by decide +kernel)

end LvdTerm.Vnc
