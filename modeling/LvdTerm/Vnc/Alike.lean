import LvdTerm.Vnc.Lockstep
import LvdTerm.Vnc.Resumable

/-!
# VNC client: clients that behave alike

Two clients on the same connection may differ in what is dead: the negotiated version before one has
been negotiated, the images before the desktop is known, the last rectangle once it is complete. They
stay alike through every step and every event of the socket, and neither writes without a socket.
-/
namespace LvdTerm.Vnc

open Lib Lib.Action

variable {E : Env} {α : Type} {old : List Event} {c c' : VncClient E}

/-- A zlib stream that has not seen any data. -/
def Unused (s : Option (InflateState E)) : Prop :=
  s = none ∨ ∃ zs, E.zlib.inflateInit = some zs ∧ s = some ⟨some zs⟩

def SameStream (s s' : Option (InflateState E)) : Prop := s = s' ∨ Unused s ∧ Unused s'

/-- The rectangle that is being decoded. -/
def progressOf (c : VncClient E) : Rect × Int × Nat × Nat × QRgb × QRgb :=
  (c.rect, c.encoding, c.tileX, c.tileY, c.hexBg, c.hexFg)

/-- What there is to see. -/
def screenOf (c : VncClient E) : Image × Image × String := (c.work, c.fb, c.desktopName)

/-- `c` has said `old`, and goes on like `c'`. -/
structure Alike (old : List Event) (c c' : VncClient E) : Prop where
  events : c.events = old ++ c'.events
  socket : c.socket = c'.socket
  buf : c.buf = c'.buf
  stage : c.stage = c'.stage
  passwordProvider : c.passwordProvider = c'.passwordProvider
  password : c.password = c'.password
  maxMinor : c.maxMinor = c'.maxMinor
  encodings : c.encodings = c'.encodings
  failedAlready : c.failedAlready = c'.failedAlready
  open_iff : c'.socket = true ↔ c'.stage ≠ .idle
  failed : c'.failedAlready = true → c'.stage = .idle
  minor : c'.stage ≠ .idle → c'.stage ≠ .version → c.minor = c'.minor
  dirty : c.dirty = c'.dirty
  resized : c.resized = c'.resized
  tightStreams : ∀ i, SameStream (c.tightStreams i) (c'.tightStreams i)
  zrleStream : SameStream c.zrleStream c'.zrleStream
  screen : .ready ∈ c'.events → screenOf c = screenOf c'
  running : c'.stage = .running → .ready ∈ c'.events
  inRect : c.inRect = c'.inRect
  progress : c'.inRect = true → progressOf c = progressOf c'
  left : c.rectsLeft = c'.rectsLeft ∨ c'.inRect = false ∧ c.rectsLeft ≤ 0 ∧ c'.rectsLeft ≤ 0
  mode : c'.inRect = true ∨ 0 < c'.rectsLeft → c.lastRectMode = c'.lastRectMode

/-- Any fault but the missing socket. -/
def Excused (f : Fault) : Prop := f ≠ .nullSocket

instance : DecidablePred Excused := fun f => inferInstanceAs (Decidable (f ≠ .nullSocket))

/-! ## Failing -/

theorem append_both {old new : List Event} {es es' : List Event} (h : es = old ++ es') : es ++ new = old ++ (es' ++ new) := by
  rw [h, List.append_assoc]

theorem paired_fail {message : String} {T : Unit → VncClient E → VncClient E → Prop} (hf : c.failedAlready = c'.failedAlready)
    (hagain : T () c c') (hfirst : T () (c.failed message) (c'.failed message)) : Paired Excused (fail message) T c c' := by
  unfold Paired
  cases hf' : c'.failedAlready with
  | true =>
    rw [fail_again message (hf.trans hf'), fail_again message hf']
    exact .ok _ hagain
  | false =>
    rw [fail_apply message (hf.trans hf'), fail_apply message hf']
    exact .ok _ hfirst

theorem Alike.both_failed (h : Alike old c c') (message : String) : Alike old (c.failed message) (c'.failed message) :=
  { h with
    events := append_both (append_both h.events)
    socket := rfl
    stage := rfl
    failedAlready := rfl
    open_iff := by simp [VncClient.failed]
    failed := fun _ => rfl
    minor := fun hidle => absurd rfl hidle
    screen := fun hr => h.screen (by simpa [VncClient.failed] using hr)
    running := fun hs => by cases hs }

theorem Alike.fail (h : Alike old c c') (message : String) : Paired Excused (fail message) (fun _ => Alike old) c c' :=
  paired_fail h.failedAlready h (h.both_failed message)

theorem Alike.failStep (h : Alike old c c') (message : String) :
    Paired Excused (failStep message) (fun _ => Alike old) c c' :=
  paired_bind ((h.fail message).mono fun _ _ _ h => paired_pure h)

/-! ## Pairs of operations -/

theorem paired_need {n : Nat} {m : ClientM E Bool} {T : Bool → VncClient E → VncClient E → Prop} (hbuf : c.buf = c'.buf)
    (hshort : T false c c') (henough : Paired Excused m T c c') : Paired Excused (need n m) T c c' :=
  paired_bind (paired_gets (congrArg List.length hbuf) (paired_ite (fun _ => paired_pure hshort) (fun _ => henough)))

theorem paired_u8 {off : Nat} {T : UInt8 → VncClient E → VncClient E → Prop} (hbuf : c.buf = c'.buf) (h : ∀ b, T b c c') :
    Paired Excused (u8 off) T c c' := by
  unfold Paired u8
  rw [hbuf]
  split
  · exact .ok _ (h _)
  · exact .error _ (by decide)

theorem paired_u16 {off : Nat} {T : Nat → VncClient E → VncClient E → Prop} (hbuf : c.buf = c'.buf) (h : ∀ v, T v c c') :
    Paired Excused (u16 off) T c c' :=
  paired_bind (paired_u8 hbuf fun _ => paired_bind (paired_u8 hbuf fun _ => paired_pure (h _)))

theorem paired_u32 {off : Nat} {T : Nat → VncClient E → VncClient E → Prop} (hbuf : c.buf = c'.buf) (h : ∀ v, T v c c') :
    Paired Excused (u32 off) T c c' :=
  paired_bind (paired_u16 hbuf fun _ => paired_bind (paired_u16 hbuf fun _ => paired_pure (h _)))

theorem paired_bytes {off n : Nat} {T : List UInt8 → VncClient E → VncClient E → Prop} (hbuf : c.buf = c'.buf)
    (h : ∀ d, T d c c') : Paired Excused (bytes off n) T c c' :=
  paired_check (p := fun c : VncClient E => off + n ≤ c.buf.length) (by rw [hbuf]) (by decide)
    fun _ => ⟨by rw [hbuf], h _⟩

theorem paired_consume {n : Nat} {T : Unit → VncClient E → VncClient E → Prop} (hbuf : c.buf = c'.buf)
    (h : T () { c with buf := c'.buf.drop n } { c' with buf := c'.buf.drop n }) : Paired Excused (consume n) T c c' := by
  refine paired_check (p := fun c : VncClient E => n ≤ c.buf.length) (by rw [hbuf]) (by decide) fun _ => ⟨rfl, ?_⟩
  rw [hbuf]
  exact h

theorem paired_write {data : List UInt8} {T : Unit → VncClient E → VncClient E → Prop} (hc : c.socket = true)
    (hc' : c'.socket = true)
    (h : T () { c with events := c.events ++ [.write data] } { c' with events := c'.events ++ [.write data] }) :
    Paired Excused (write data) T c c' := by
  unfold Paired write
  rw [if_pos hc, if_pos hc']
  exact .ok _ h

/-! ## Handshake -/

section Handshake

variable (h : Alike old c c')

include h

theorem Alike.open (hidle : c'.stage ≠ .idle) : c.socket = true ∧ c'.socket = true := by
  have hopen := h.open_iff.mpr hidle
  exact ⟨h.socket.trans hopen, hopen⟩

/-- A later stage of the handshake. -/
theorem Alike.advance {stage : Stage} (hidle : c'.stage ≠ .idle) (hminor : c.minor = c'.minor)
    (hstage : stage ≠ .idle ∧ stage ≠ .running) : Alike old { c with stage := stage } { c' with stage := stage } :=
  { h with
    stage := rfl
    open_iff := ⟨fun _ => hstage.1, fun _ => h.open_iff.mpr hidle⟩
    failed := fun hf => absurd (h.failed hf) hidle
    minor := fun _ _ => hminor
    running := fun hs => absurd hs hstage.2 }

/-- A version has been negotiated. -/
theorem Alike.negotiated {minor minor' : Nat} (hidle : c'.stage ≠ .idle) (hminor : minor = minor') :
    Alike old { c with minor := minor, stage := .securityTypes } { c' with minor := minor', stage := .securityTypes } :=
  { h with
    stage := rfl
    open_iff := ⟨fun _ => by simp, fun _ => h.open_iff.mpr hidle⟩
    failed := fun hf => absurd (h.failed hf) hidle
    minor := fun _ _ => hminor
    running := fun hs => by cases hs }

/-- What has been written, by both. -/
theorem Alike.wrote (data : List UInt8) :
    Alike old { c with events := c.events ++ [.write data] } { c' with events := c'.events ++ [.write data] } :=
  { h with
    events := append_both h.events
    screen := fun hr => h.screen (by simpa using hr)
    running := fun hs => List.mem_append_left _ (h.running hs) }

theorem alike_stepVersion (hs : c'.stage = .version) : Paired Excused stepVersion (fun _ => Alike old) c c' := by
  have hidle : c'.stage ≠ .idle := by rw [hs]; decide
  obtain ⟨hc, hc'⟩ := h.open hidle
  refine paired_need h.buf h (paired_bind (paired_bytes h.buf fun magic => paired_ite (fun _ => h.failStep _) (fun _ => ?_)))
  refine paired_bind (paired_bytes h.buf fun major => paired_bind (paired_bytes h.buf fun minor => ?_))
  refine paired_bind (paired_consume h.buf (paired_bind (paired_modify (paired_bind (paired_gets ?_ ?_)))))
  · exact congrArg (negotiatedMinor (toInt major) (toInt minor)) h.maxMinor
  · refine paired_bind (paired_write hc hc' (paired_bind (paired_modify (paired_pure ?_))))
    have hused : Alike old { c with buf := c'.buf.drop 12 } { c' with buf := c'.buf.drop 12 } := { h with buf := rfl }
    exact (hused.wrote _).negotiated hidle (congrArg (negotiatedMinor (toInt major) (toInt minor)) h.maxMinor)

theorem alike_sendClientInit (hidle : c'.stage ≠ .idle) (hminor : c.minor = c'.minor) :
    Paired Excused sendClientInit (fun _ => Alike old) c c' := by
  obtain ⟨hc, hc'⟩ := h.open hidle
  refine paired_bind (paired_write hc hc' (paired_modify ?_))
  exact (h.wrote _).advance hidle hminor (by decide)

theorem alike_beginSecurity (type : Nat) (hidle : c'.stage ≠ .idle) (hminor : c.minor = c'.minor) :
    Paired Excused (beginSecurity type) (fun _ => Alike old) c c' := by
  refine paired_bind (paired_modify (paired_bind (paired_gets hminor ?_)))
  have hchosen : Alike old { c with securityType := type } { c' with securityType := type } := { h with }
  refine paired_ite (fun _ => paired_ite (fun _ => paired_modify ?_) (fun _ => ?_)) (fun _ => paired_ite (fun _ => paired_modify ?_) (fun _ => ?_))
  · exact hchosen.advance hidle hminor (by decide)
  · exact alike_sendClientInit hchosen hidle hminor
  · exact hchosen.advance hidle hminor (by decide)
  · exact hchosen.fail _

theorem alike_stepSecurityTypes (hs : c'.stage = .securityTypes) : Paired Excused stepSecurityTypes (fun _ => Alike old) c c' := by
  have hidle : c'.stage ≠ .idle := by rw [hs]; decide
  have hminor : c.minor = c'.minor := h.minor hidle (by rw [hs]; decide)
  obtain ⟨hc, hc'⟩ := h.open hidle
  have hused (n : Nat) : Alike old { c with buf := c'.buf.drop n } { c' with buf := c'.buf.drop n } := { h with buf := rfl }
  refine paired_bind (paired_gets hminor (paired_ite (fun _ => ?one) (fun _ => ?list)))
  case one =>
    refine paired_need h.buf h (paired_bind (paired_u32 h.buf fun type => paired_bind (paired_consume h.buf ?_)))
    refine paired_ite (fun _ => paired_bind (paired_modify (paired_pure ?_))) (fun _ => paired_bind ?_)
    · exact (hused 4).advance hidle hminor (by decide)
    · exact (alike_beginSecurity (hused 4) _ hidle hminor).mono fun _ _ _ h => paired_pure h
  case list =>
    refine paired_need h.buf h (paired_bind (paired_u8 h.buf fun count => paired_ite (fun _ => ?_) (fun _ => ?_)))
    · refine paired_bind (paired_consume h.buf (paired_bind (paired_modify (paired_pure ?_))))
      exact (hused 1).advance hidle hminor (by decide)
    · refine paired_need h.buf h (paired_bind (paired_bytes h.buf fun types => paired_bind (paired_consume h.buf ?_)))
      refine paired_ite (fun _ => (hused _).failStep _) (fun _ => paired_bind (paired_write hc hc' (paired_bind ?_)))
      exact (alike_beginSecurity ((hused _).wrote _) _ hidle hminor).mono fun _ _ _ h => paired_pure h

theorem alike_stepAuthChallenge (hs : c'.stage = .authChallenge) : Paired Excused stepAuthChallenge (fun _ => Alike old) c c' := by
  have hidle : c'.stage ≠ .idle := by rw [hs]; decide
  have hminor : c.minor = c'.minor := h.minor hidle (by rw [hs]; decide)
  obtain ⟨hc, hc'⟩ := h.open hidle
  refine paired_need h.buf h (paired_bind (paired_bytes h.buf fun challenge => paired_bind (paired_consume h.buf ?_)))
  have hused : Alike old { c with buf := c'.buf.drop 16 } { c' with buf := c'.buf.drop 16 } := { h with buf := rfl }
  refine paired_bind (paired_bind (paired_gets h.password (paired_bind (paired_gets h.passwordProvider ?_))))
  cases passwordToUse c.password c.passwordProvider with
  | none => exact paired_pure (hused.failStep _)
  | some entered =>
    have hentered : Alike old { c with buf := c'.buf.drop 16, password := entered } { c' with buf := c'.buf.drop 16, password := entered } :=
      { hused with password := rfl }
    refine paired_bind (paired_modify (paired_pure (paired_bind (paired_gets rfl ?_))))
    refine paired_bind (paired_write hc hc' (paired_bind (paired_modify (paired_pure ?_))))
    exact (hentered.wrote _).advance hidle hminor (by decide)

theorem alike_stepSecurityResult (hs : c'.stage = .securityResult) : Paired Excused stepSecurityResult (fun _ => Alike old) c c' := by
  have hidle : c'.stage ≠ .idle := by rw [hs]; decide
  have hminor : c.minor = c'.minor := h.minor hidle (by rw [hs]; decide)
  refine paired_need h.buf h (paired_bind (paired_u32 h.buf fun result => paired_bind (paired_consume h.buf ?_)))
  have hused : Alike old { c with buf := c'.buf.drop 4 } { c' with buf := c'.buf.drop 4 } := { h with buf := rfl }
  refine paired_bind (paired_gets hminor (paired_ite (fun _ => paired_bind ?_) (fun _ => paired_ite (fun _ => ?_) (fun _ => ?_))))
  · exact (alike_sendClientInit hused hidle hminor).mono fun _ _ _ h => paired_pure h
  · exact paired_bind (paired_modify (paired_pure (hused.advance hidle hminor (by decide))))
  · exact hused.failStep _

theorem alike_stepSecurityReason : Paired Excused stepSecurityReason (fun _ => Alike old) c c' := by
  refine paired_need h.buf h (paired_bind (paired_u32 h.buf fun length => paired_ite (fun _ => h.failStep _) (fun _ => ?_)))
  refine paired_need h.buf h (paired_bind (paired_bytes h.buf fun data => paired_bind (paired_consume h.buf ?_)))
  have hused : Alike old { c with buf := c'.buf.drop (4 + length) } { c' with buf := c'.buf.drop (4 + length) } :=
    { h with buf := rfl }
  exact hused.failStep _

end Handshake

/-! ## ServerInit -/

theorem Alike.sizedAs (h : Alike old c c') (hidle : c'.stage ≠ .idle) (hminor : c.minor = c'.minor) (width height : Nat) (name : String) :
    Alike old
      { c with work := .black width height, fb := .black width height, desktopName := name, stage := .running,
               events := c.events ++ [.ready] }
      { c' with work := .black width height, fb := .black width height, desktopName := name, stage := .running,
                events := c'.events ++ [.ready] } :=
  { h with
    events := append_both h.events
    stage := rfl
    open_iff := ⟨fun _ => by simp, fun _ => h.open_iff.mpr hidle⟩
    failed := fun hf => absurd (h.failed hf) hidle
    minor := fun _ _ => hminor
    screen := fun _ => rfl
    running := fun _ => by simp }

theorem alike_stepServerInit (h : Alike old c c') (hs : c'.stage = .serverInit) :
    Paired Excused stepServerInit (fun _ => Alike old) c c' := by
  have hidle : c'.stage ≠ .idle := by rw [hs]; decide
  have hminor : c.minor = c'.minor := h.minor hidle (by rw [hs]; decide)
  obtain ⟨hc, hc'⟩ := h.open hidle
  refine paired_need h.buf h (paired_bind (paired_u32 h.buf fun nameLength => paired_ite (fun _ => h.failStep _) (fun _ => ?_)))
  refine paired_need h.buf h (paired_bind (paired_u16 h.buf fun width => paired_bind (paired_u16 h.buf fun height => ?_)))
  refine paired_bind (paired_bytes h.buf fun name => paired_bind (paired_modify (paired_bind (paired_consume h.buf ?_))))
  have hused : Alike old { c with buf := c'.buf.drop (24 + nameLength) } { c' with buf := c'.buf.drop (24 + nameLength) } :=
    { h with buf := rfl }
  refine paired_ite (fun _ => ?_) (fun _ => paired_bind (paired_modify (paired_bind ?_)))
  · have hready : .ready ∈ c'.events → screenOf c = screenOf c' := h.screen
    have hnamed : Alike old { c with buf := c'.buf.drop (24 + nameLength), desktopName := E.fromUtf8 name }
        { c' with buf := c'.buf.drop (24 + nameLength), desktopName := E.fromUtf8 name } :=
      { hused with
        screen := fun hr => by
          have hsame := hready hr
          simp only [screenOf, Prod.mk.injEq, and_true] at hsame ⊢
          exact ⟨hsame.1, hsame.2.1⟩ }
    exact hnamed.failStep _
  · refine paired_bind (paired_gets h.encodings (paired_write hc hc' (paired_bind (paired_modify (paired_bind ?_)))))
    refine paired_bind (paired_gets h.socket (paired_bind (paired_gets rfl (paired_ite (fun _ => ?_) (fun _ => ?_)))))
    · refine paired_pure (paired_bind (paired_modify (paired_pure ?_)))
      exact (hused.wrote _).sizedAs hidle hminor width height _
    · refine paired_write hc hc' (paired_bind (paired_modify (paired_pure ?_)))
      exact ((hused.wrote _).wrote _).sizedAs hidle hminor width height _

end LvdTerm.Vnc
