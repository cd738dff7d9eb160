import LvdTerm.Vnc.Rules

/-!
# VNC client: the invariant of a connection

`Inv` holds of a client from `connectToHost` on. It relates the stage to the socket, the
two images to each other and the rectangle being decoded to the working image. Every step
keeps it (`Next`), leaves no more data than it found, and brings the loop in `onReadyRead`
closer to its end whenever it returns `true`.
-/
namespace LvdTerm.Vnc

open Lib Action

variable {E : Env}

/-- The images of a running client. -/
structure Screen (c : VncClient E) : Prop where
  width_pos : 0 < c.work.width
  height_pos : 0 < c.work.height
  width_lt : c.work.width < 2 ^ 16
  height_lt : c.work.height < 2 ^ 16
  fb_width : c.fb.width = c.work.width
  fb_height : c.fb.height = c.work.height

/-- The rectangle being decoded, once its header has been accepted. -/
structure RectOk (c : VncClient E) : Prop where
  width_lt : c.rect.w < 2 ^ 16
  height_lt : c.rect.h < 2 ^ 16
  inside : c.encoding = encDesktopSize ∨ c.encoding = encLastRect ∨
    c.work.rect.contains c.rect = true
  tile : c.tileX ≤ c.rect.w

structure Inv (c : VncClient E) : Prop where
  idle : c.stage = .idle → c.socket = false
  live : c.stage ≠ .idle → c.socket = true ∧ c.failedAlready = false
  early : c.stage ≠ .running → c.stage ≠ .idle → c.inRect = false
  screen : c.stage = .running → Screen c
  rect : c.stage = .running → c.inRect = true → RectOk c

/-- What a step leaves behind. -/
structure Next (c : VncClient E) (done : Bool) (c' : VncClient E) : Prop where
  inv : Inv c'
  buf_le : c'.buf.length ≤ c.buf.length
  progress : done = true → stepsLeft c' < stepsLeft c

variable {F : Fault → Prop} {c c' : VncClient E}

theorem inv_idle (hs : c.stage = .idle) (hsocket : c.socket = false) : Inv c where
  idle _ := hsocket
  live h := absurd hs h
  early _ h := absurd hs h
  screen h := by rw [hs] at h; cases h
  rect h := by rw [hs] at h; cases h

theorem inv_failed (message : String) (c : VncClient E) : Inv (c.failed message) := inv_idle rfl rfl

theorem Next.wait (h : Inv c) : Next c false c := ⟨h, Nat.le_refl _, fun h => by cases h⟩

theorem Next.failed (message : String) (hle : c'.buf.length ≤ c.buf.length) :
    Next c false (c'.failed message) :=
  ⟨inv_failed message c', hle, fun h => by cases h⟩

/-- A step of the handshake that used up data. -/
theorem Next.consumed (h : Inv c') (hin : c'.inRect = c.inRect) (hlt : c'.buf.length < c.buf.length)
    (done : Bool) : Next c done c' := by
  refine ⟨h, Nat.le_of_lt hlt, fun _ => ?_⟩
  unfold stepsLeft
  rw [hin]
  omega

/-- A live stage of the handshake: only socket, failure flag and rectangle state matter. -/
theorem inv_handshake (stage : Stage) (hs : c'.stage = stage) (hearly : stage ≠ .running)
    (hidle : stage ≠ .idle) (hsocket : c'.socket = true) (hfailed : c'.failedAlready = false)
    (hin : c'.inRect = false) : Inv c' := by
  subst hs
  exact ⟨fun h => absurd h hidle, fun _ => ⟨hsocket, hfailed⟩, fun _ _ => hin,
    fun h => absurd h hearly, fun h => absurd h hearly⟩

/-- A running client between two rectangles. -/
theorem inv_running (hs : c'.stage = .running) (hsocket : c'.socket = true)
    (hfailed : c'.failedAlready = false) (hin : c'.inRect = false) (hscreen : Screen c') : Inv c' where
  idle h := by rw [hs] at h; cases h
  live _ := ⟨hsocket, hfailed⟩
  early h := absurd hs h
  screen _ := hscreen
  rect _ h := by rw [hin] at h; cases h

/-! ## Handshake -/

section Handshake

/-- A live client that is still in the handshake, as `beginSecurity` and `sendClientInit`
find and leave it. -/
structure Early (c : VncClient E) : Prop where
  socket : c.socket = true
  failed : c.failedAlready = false
  inRect : c.inRect = false

theorem Inv.early_of (h : Inv c) (hrun : c.stage ≠ .running) (hidle : c.stage ≠ .idle) : Early c :=
  ⟨(h.live hidle).1, (h.live hidle).2, h.early hrun hidle⟩

theorem Early.inv (h : Early c) (stage : Stage) (hs : c.stage = stage) (hrun : stage ≠ .running)
    (hidle : stage ≠ .idle) : Inv c :=
  inv_handshake stage hs hrun hidle h.socket h.failed h.inRect

theorem wp_fail {message : String} {Q : Unit → VncClient E → Prop} (hc : c.failedAlready = false)
    (h : Q () (c.failed message)) : wp F (fail message) Q c := by
  unfold wp
  rw [fail_apply message hc]
  exact h

theorem beginSecurity_spec (type : Nat) (h : Early c) :
    wp F (beginSecurity type)
      (fun _ c' => Inv c' ∧ c'.inRect = c.inRect ∧ c'.buf = c.buf) c := by
  unfold beginSecurity sendClientInit setStage
  simp only [wp_bind, wp_modify, wp_gets]
  refine wp_ite (fun _ => wp_ite (fun _ => ?_) (fun _ => ?_)) (fun _ => wp_ite (fun _ => ?_) (fun _ => ?_))
  · exact ⟨inv_handshake .securityResult rfl (by decide) (by decide) h.socket h.failed h.inRect, rfl, rfl⟩
  · simp only [wp_bind, wp_modify]
    refine wp_write h.socket ?_
    exact ⟨inv_handshake .serverInit rfl (by decide) (by decide) h.socket h.failed h.inRect, rfl, rfl⟩
  · exact ⟨inv_handshake .authChallenge rfl (by decide) (by decide) h.socket h.failed h.inRect, rfl, rfl⟩
  · exact wp_fail h.failed ⟨inv_failed _ _, rfl, rfl⟩

theorem Next.after {n : Nat} {done : Bool} (hn : 0 < n) (hlen : n ≤ c.buf.length) (h : Inv c')
    (hin : c'.inRect = c.inRect) (hbuf : c'.buf = c.buf.drop n) : Next c done c' := by
  apply Next.consumed h hin
  rw [hbuf, List.length_drop]
  omega

theorem stepVersion_next (h : Inv c) (he : Early c) : wp F stepVersion (Next c) c := by
  unfold stepVersion
  refine wp_need (.wait h) fun hlen => ?_
  simp only [wp_bind]
  refine wp_bytes (by omega) fun magic _ => wp_ite (fun _ => ?_) (fun _ => ?_)
  · exact wp_failStep he.failed (.failed _ (Nat.le_refl _))
  · simp only [wp_bind]
    refine wp_bytes (by omega) fun major _ => wp_bytes (by omega) fun minor _ => ?_
    refine wp_consume hlen (wp_write he.socket (.after (by decide) hlen ?_ rfl rfl))
    exact inv_handshake .securityTypes rfl (by decide) (by decide) he.socket he.failed he.inRect

theorem stepSecurityType_next (h : Inv c) (he : Early c) : wp F stepSecurityType (Next c) c := by
  unfold stepSecurityType
  refine wp_need (.wait h) fun hlen => ?_
  simp only [wp_bind]
  refine wp_u32 (by omega) fun type _ => wp_consume hlen (wp_ite (fun _ => ?_) (fun _ => ?_))
  · exact .after (by decide) hlen
      (inv_handshake .securityReason rfl (by decide) (by decide) he.socket he.failed he.inRect) rfl rfl
  · simp only [wp_bind, wp_pure]
    refine wp_mono (beginSecurity_spec _ ⟨he.socket, he.failed, he.inRect⟩) ?_
    rintro _ c' ⟨hinv, hin, hbuf⟩
    exact .after (by decide) hlen hinv hin hbuf

theorem stepSecurityList_next (h : Inv c) (he : Early c) : wp F stepSecurityList (Next c) c := by
  unfold stepSecurityList
  refine wp_need (.wait h) fun hlen => ?_
  simp only [wp_bind]
  refine wp_u8 (by omega) fun count _ => wp_ite (fun _ => ?_) (fun _ => wp_need (.wait h) fun hlen' => ?_)
  · simp only [wp_bind]
    refine wp_consume hlen (.after (by decide) hlen ?_ rfl rfl)
    exact inv_handshake .securityReason rfl (by decide) (by decide) he.socket he.failed he.inRect
  · simp only [wp_bind]
    refine wp_bytes (by omega) fun types _ => wp_consume hlen' (wp_ite (fun _ => ?_) (fun _ => ?_))
    · refine wp_failStep he.failed (.failed _ ?_)
      simp only [List.length_drop]
      omega
    · simp only [wp_bind, wp_pure]
      refine wp_write he.socket (wp_mono (beginSecurity_spec _ ⟨he.socket, he.failed, he.inRect⟩) ?_)
      rintro _ c' ⟨hinv, hin, hbuf⟩
      exact .after (by omega) hlen' hinv hin hbuf

theorem stepSecurityTypes_next (h : Inv c) (he : Early c) : wp F stepSecurityTypes (Next c) c := by
  unfold stepSecurityTypes
  simp only [wp_bind, wp_gets]
  exact wp_ite (fun _ => stepSecurityType_next h he) (fun _ => stepSecurityList_next h he)

theorem wp_obtainPassword {Q : Bool → VncClient E → Prop} (hno : Q false c)
    (hyes : ∀ password, Q true { c with password := password }) : wp F obtainPassword Q c := by
  unfold obtainPassword
  simp only [wp_bind, wp_gets]
  cases passwordToUse c.password c.passwordProvider with
  | none => exact hno
  | some entered => exact hyes entered

theorem stepAuthChallenge_next (h : Inv c) (he : Early c) : wp F stepAuthChallenge (Next c) c := by
  unfold stepAuthChallenge
  refine wp_need (.wait h) fun hlen => ?_
  simp only [wp_bind]
  refine wp_bytes (by omega) fun challenge _ => wp_consume hlen (wp_obtainPassword ?_ fun password => ?_)
  · refine wp_ite (fun _ => wp_failStep he.failed (.failed _ ?_)) (fun h => absurd rfl h)
    simp only [List.length_drop]
    omega
  · refine wp_ite (fun h => by cases h) (fun _ => ?_)
    simp only [wp_bind, wp_gets]
    refine wp_write he.socket (.after (by decide) hlen ?_ rfl rfl)
    exact inv_handshake .securityResult rfl (by decide) (by decide) he.socket he.failed he.inRect

theorem stepSecurityResult_next (h : Inv c) (he : Early c) : wp F stepSecurityResult (Next c) c := by
  unfold stepSecurityResult sendClientInit
  refine wp_need (.wait h) fun hlen => ?_
  simp only [wp_bind]
  refine wp_u32 (by omega) fun result _ => wp_consume hlen ?_
  refine wp_ite (fun _ => ?_) (fun _ => wp_ite (fun _ => ?_) (fun _ => ?_))
  · simp only [wp_bind]
    refine wp_write he.socket (.after (by decide) hlen ?_ rfl rfl)
    exact inv_handshake .serverInit rfl (by decide) (by decide) he.socket he.failed he.inRect
  · refine .after (by decide) hlen ?_ rfl rfl
    exact inv_handshake .securityReason rfl (by decide) (by decide) he.socket he.failed he.inRect
  · refine wp_failStep he.failed (.failed _ ?_)
    simp only [List.length_drop]
    omega

theorem stepSecurityReason_next (h : Inv c) (he : Early c) : wp F stepSecurityReason (Next c) c := by
  unfold stepSecurityReason
  refine wp_need (.wait h) fun hlen => ?_
  simp only [wp_bind]
  refine wp_u32 (by omega) fun length _ => wp_ite (fun _ => ?_) (fun _ => wp_need (.wait h) fun hlen' => ?_)
  · exact wp_failStep he.failed (.failed _ (Nat.le_refl _))
  · simp only [wp_bind]
    refine wp_bytes hlen' fun data _ => wp_consume hlen' (wp_failStep he.failed (.failed _ ?_))
    simp only [List.length_drop]
    omega

/-- `requestUpdate` sends at most one message. -/
theorem wp_requestUpdate {incremental : Bool} {Q : Unit → VncClient E → Prop} (hsocket : c.socket = true)
    (h : ∀ events, Q () { c with events := events }) : wp F (requestUpdate incremental) Q c := by
  unfold requestUpdate
  simp only [wp_bind, wp_gets]
  exact wp_ite (fun _ => h c.events) (fun _ => wp_write hsocket (h _))

theorem stepServerInit_next (h : Inv c) (he : Early c) : wp F stepServerInit (Next c) c := by
  unfold stepServerInit
  refine wp_need (.wait h) fun hlen => ?_
  simp only [wp_bind]
  refine wp_u32 (by omega) fun nameLength _ => wp_ite (fun _ => ?_) (fun _ => wp_need (.wait h) fun hlen' => ?_)
  · exact wp_failStep he.failed (.failed _ (Nat.le_refl _))
  · simp only [wp_bind]
    refine wp_u16 (by omega) fun width hw => wp_u16 (by omega) fun height hh => ?_
    refine wp_bytes hlen' fun name _ => wp_consume hlen' (wp_ite (fun _ => ?_) (fun hsize => ?_))
    · refine wp_failStep he.failed (.failed _ ?_)
      simp only [List.length_drop]
      omega
    · simp only [wp_bind, allocFramebuffer, sendPixelFormatAndEncodings, setStage, emit, wp_modify, wp_gets]
      refine wp_write he.socket (wp_requestUpdate he.socket fun events => ?_)
      refine .after (n := 24 + nameLength) (by omega) hlen' ?_ rfl rfl
      refine inv_running rfl he.socket he.failed he.inRect ⟨?_, ?_, hw, hh, rfl, rfl⟩
      · exact Nat.pos_of_ne_zero fun h0 => hsize (.inl h0)
      · exact Nat.pos_of_ne_zero fun h0 => hsize (.inr h0)

end Handshake

end LvdTerm.Vnc
