import LvdTerm.Vnc.StepInvariant
import LvdTerm.Lib.Drain
import LvdTerm.Lib.Loops

/-!
# VNC client: steps can be resumed

The buffer as an inbox, and for each step that it may be tried again when more data has
arrived. Almost every step changes nothing before it knows that its data is complete
(`Atomic`); Tight resets streams first, Hextile stops between two tiles and a rectangle
header is used up before the rectangle's data.
-/
namespace LvdTerm.Vnc

open Lib Lib.Inbox

variable {E : Env}

/-- Data arrives at the end of `m_buf`; nothing is decoded once the client is idle or has failed. -/
def inbox (E : Env) : Inbox (VncClient E) UInt8 where
  append := appendChunk
  avail c := c.buf.length
  halted c := c.stage = .idle || c.failedAlready
  append_nil c := by simp only [appendChunk, List.append_nil]
  append_append x y c := by simp only [appendChunk, List.append_assoc]
  avail_append x c := by simp only [appendChunk, List.length_append]
  halted_append _ _ := rfl

/-- Reading a byte that has not arrived. -/
def ReadAhead (f : Fault) : Prop := f = .bufferRead

abbrev StableM {α : Type} (m : ClientM E α) : Prop := (inbox E).Stable ReadAhead m
abbrev DecidesM (m : ClientM E Bool) : Prop := (inbox E).Decides ReadAhead m
abbrev AtomicM (m : ClientM E Bool) : Prop := (inbox E).Atomic ReadAhead m
abbrev PeekM {α : Type} (m : ClientM E (Option α)) : Prop := (inbox E).Peek ReadAhead m

/-! ## Reading -/

theorem u8_eq_ok {off : Nat} {c c' : VncClient E} {b : UInt8} (h : u8 off c = .ok (b, c')) :
    c.buf[off]? = some b ∧ c' = c := by
  unfold u8 at h
  split at h
  · rename_i b' hb
    cases h
    exact ⟨hb, rfl⟩
  · cases h

theorem stable_u8 (off : Nat) : StableM (u8 off : ClientM E UInt8) where
  ok {c b c'} h x := by
    obtain ⟨hb, rfl⟩ := u8_eq_ok h
    have hlt : off < c'.buf.length := (List.getElem?_eq_some_iff.mp hb).1
    have hx : ((inbox E).append x c').buf[off]? = some b := by
      rw [← hb]
      exact List.getElem?_append_left hlt
    unfold u8
    rw [hx]
  fault {c e} h hs x := by
    unfold u8 at h
    split at h
    · cases h
    · cases h
      exact absurd rfl hs

theorem readOnly_u8 (off : Nat) : ReadOnly (u8 off : ClientM E UInt8) := fun h => (u8_eq_ok h).2

theorem stable_u16 (off : Nat) : StableM (u16 off : ClientM E Nat) :=
  (stable_u8 _).bind fun _ => (stable_u8 _).bind fun _ => stable_pure _

theorem stable_u32 (off : Nat) : StableM (u32 off : ClientM E Nat) :=
  (stable_u16 _).bind fun _ => (stable_u16 _).bind fun _ => stable_pure _

theorem stable_pixelAt (off : Nat) : StableM (pixelAt off : ClientM E QRgb) :=
  (stable_u8 _).bind fun _ => (stable_u8 _).bind fun _ => (stable_u8 _).bind fun _ =>
    (stable_u8 _).bind fun _ => stable_pure _

theorem readOnly_u16 (off : Nat) : ReadOnly (u16 off : ClientM E Nat) :=
  ReadOnly.bind (readOnly_u8 _) fun _ => ReadOnly.bind (readOnly_u8 _) fun _ => readOnly_pure _

theorem readOnly_u32 (off : Nat) : ReadOnly (u32 off : ClientM E Nat) :=
  ReadOnly.bind (readOnly_u16 _) fun _ => ReadOnly.bind (readOnly_u16 _) fun _ => readOnly_pure _

theorem readOnly_pixelAt (off : Nat) : ReadOnly (pixelAt off : ClientM E QRgb) :=
  ReadOnly.bind (readOnly_u8 _) fun _ => ReadOnly.bind (readOnly_u8 _) fun _ =>
    ReadOnly.bind (readOnly_u8 _) fun _ => ReadOnly.bind (readOnly_u8 _) fun _ => readOnly_pure _

theorem stable_bytes (off n : Nat) : StableM (bytes off n : ClientM E (List UInt8)) where
  ok {c d _} h x := by
    unfold bytes at h ⊢
    split at h
    · rename_i hle
      cases h
      have hlex : off + n ≤ ((inbox E).append x c).buf.length := by
        simp only [inbox, appendChunk, List.length_append]
        omega
      have hsame : (((inbox E).append x c).buf.drop off).take n = (c.buf.drop off).take n := by
        simp only [inbox, appendChunk]
        rw [List.drop_append_of_le_length (by omega),
          List.take_append_of_le_length (by rw [List.length_drop]; omega)]
      rw [if_pos hlex, hsame]
    · cases h
  fault {c e} h hs x := by
    unfold bytes at h
    split at h
    · cases h
    · cases h
      exact absurd rfl hs

theorem stable_consume (n : Nat) : StableM (consume n : ClientM E Unit) where
  ok {c d c'} h x := by
    unfold consume at h ⊢
    split at h
    · rename_i hle
      cases h
      have hlex : n ≤ ((inbox E).append x c).buf.length := by
        simp only [inbox, appendChunk, List.length_append]
        omega
      rw [if_pos hlex]
      simp only [inbox, appendChunk, List.drop_append_of_le_length hle]
    · cases h
  fault {c e} h hs x := by
    unfold consume at h
    split at h
    · cases h
    · cases h
      exact absurd rfl hs

/-! ## Everything else does not look at the buffer -/

/-- An operation that commutes with the arrival of data. -/
theorem stable_of_commutes {α : Type} {m : ClientM E α}
    (h : ∀ x c, m (appendChunk x c) = (m c).map fun p => (p.1, appendChunk x p.2)) : StableM m where
  ok {c a c'} hm x := by
    have hx := h x c
    rw [hm] at hx
    exact hx
  fault {c e} hm _ x := by
    have hx := h x c
    rw [hm] at hx
    exact hx

theorem stable_field {α : Type} (f : VncClient E → α) (hf : ∀ x c, f (appendChunk x c) = f c) :
    StableM (Action.gets f) :=
  stable_gets hf

theorem stable_int32 (n : Nat) : StableM (int32 n : ClientM E Nat) :=
  stable_check (fun _ _ => Iff.rfl) fun _ _ => rfl

theorem stable_byteOf (data : List UInt8) (i : Nat) : StableM (byteOf data i : ClientM E UInt8) :=
  stable_of_commutes fun x c => by unfold byteOf; split <;> rfl

theorem stable_emit (e : Event) : StableM (emit e : ClientM E Unit) := stable_modify fun _ _ => rfl

theorem stable_setStage (s : Stage) : StableM (setStage s : ClientM E Unit) := stable_modify fun _ _ => rfl

theorem stable_write (data : List UInt8) : StableM (write data : ClientM E Unit) :=
  stable_check (p := fun c : VncClient E => c.socket = true) (fun _ _ => Iff.rfl) fun _ _ => rfl

theorem fail_again {c : VncClient E} (message : String) (hc : c.failedAlready = true) :
    fail message c = .ok ((), c) := by
  unfold fail
  rw [if_pos hc]

theorem stable_fail (message : String) : StableM (fail message : ClientM E Unit) :=
  stable_of_commutes fun x c => by
    cases hf : c.failedAlready with
    | true =>
      have hx : (appendChunk x c).failedAlready = true := hf
      rw [fail_again message hf, fail_again message hx]
      rfl
    | false =>
      have hx : (appendChunk x c).failedAlready = false := hf
      rw [fail_apply message hf, fail_apply message hx]
      rfl

theorem stable_setPixel (x y : Nat) (color : QRgb) : StableM (setPixel x y color : ClientM E Unit) :=
  stable_check (p := fun c : VncClient E => x < c.work.width ∧ y < c.work.height) (fun _ _ => Iff.rfl)
    fun _ _ => rfl

theorem stable_fillRect (x y w h : Nat) (color : QRgb) : StableM (fillRect x y w h color : ClientM E Unit) :=
  stable_forRange (fun _ => stable_forRange (fun _ => stable_setPixel _ _ _) _) _

theorem stable_addDirty (r : Rect) : StableM (addDirty r : ClientM E Unit) := stable_modify fun _ _ => rfl

/-- `fail` leaves a client that is idle or had failed before. -/
theorem fail_halted {message : String} {c c' : VncClient E} (h : fail message c = .ok ((), c')) :
    (inbox E).halted c' = true := by
  unfold fail at h
  simp only [inbox, Bool.or_eq_true, decide_eq_true_eq]
  split at h
  · rename_i hf
    cases h
    exact .inr hf
  · cases h
    exact .inl rfl

theorem decides_failStep (message : String) : DecidesM (failStep message : ClientM E Bool) where
  stable := (stable_fail message).bind fun _ => stable_pure false
  final h := by
    obtain ⟨⟨⟩, c', h1, h2⟩ := Action.bind_eq_ok h
    cases h2
    exact fail_halted h1

theorem atomic_failStep (message : String) : AtomicM (failStep message : ClientM E Bool) :=
  (decides_failStep message).atomic

theorem atomic_need {m : ClientM E Bool} (n : Nat) (hm : AtomicM m) : AtomicM (need n m) := hm.guard

theorem peek_peek {α : Type} {m : ClientM E (Option α)} (n : Nat) (hm : PeekM m) : PeekM (peek n m) :=
  hm.guard

/-! ## Handshake -/

theorem stepVersion_atomic : AtomicM (stepVersion : ClientM E Bool) := by
  refine atomic_need 12 (Decides.atomic ?_)
  refine (stable_bytes _ _).decides fun _ => decides_ite (decides_failStep _) ?_
  refine (stable_bytes _ _).decides fun _ => (stable_bytes _ _).decides fun _ => ?_
  refine (stable_consume _).decides fun _ => (stable_modify fun _ _ => rfl).decides fun _ => ?_
  refine (stable_field _ fun _ _ => rfl).decides fun _ => (stable_write _).decides fun _ => ?_
  exact (stable_setStage _).decides fun _ => decides_true

theorem stable_sendClientInit : StableM (sendClientInit : ClientM E Unit) :=
  (stable_write _).bind fun _ => stable_setStage _

theorem stable_beginSecurity (type : Nat) : StableM (beginSecurity type : ClientM E Unit) := by
  refine (stable_modify fun _ _ => rfl).bind fun _ => (stable_field _ fun _ _ => rfl).bind fun _ => ?_
  refine stable_ite (stable_ite (stable_setStage _) stable_sendClientInit) ?_
  exact stable_ite (stable_setStage _) (stable_fail _)

theorem stepSecurityType_atomic : AtomicM (stepSecurityType : ClientM E Bool) := by
  refine atomic_need 4 (Decides.atomic ?_)
  refine (stable_u32 _).decides fun _ => (stable_consume _).decides fun _ => decides_ite ?_ ?_
  · exact (stable_setStage _).decides fun _ => decides_true
  · exact (stable_beginSecurity _).decides fun _ => decides_true

theorem stepSecurityList_atomic : AtomicM (stepSecurityList : ClientM E Bool) := by
  refine atomic_need 1 (Atomic.after (stable_u8 _) (readOnly_u8 _) fun count => atomic_ite ?_ ?_)
  · refine Decides.atomic ((stable_consume _).decides fun _ => (stable_setStage _).decides fun _ => ?_)
    exact decides_true
  · refine atomic_need _ (Decides.atomic ?_)
    refine (stable_bytes _ _).decides fun _ => (stable_consume _).decides fun _ => ?_
    refine decides_ite (decides_failStep _) ((stable_write _).decides fun _ => ?_)
    exact (stable_beginSecurity _).decides fun _ => decides_true

theorem stable_obtainPassword : StableM (obtainPassword : ClientM E Bool) := by
  refine (stable_field _ fun _ _ => rfl).bind fun password => ?_
  refine (stable_field _ fun _ _ => rfl).bind fun provider => ?_
  cases passwordToUse password provider with
  | none => exact stable_pure _
  | some entered => exact (stable_modify fun _ _ => rfl).bind fun _ => stable_pure _

theorem stepAuthChallenge_atomic : AtomicM (stepAuthChallenge : ClientM E Bool) := by
  refine atomic_need 16 (Decides.atomic ?_)
  refine (stable_bytes _ _).decides fun _ => (stable_consume _).decides fun _ => ?_
  refine stable_obtainPassword.decides fun _ => decides_ite (decides_failStep _) ?_
  refine (stable_field _ fun _ _ => rfl).decides fun _ => (stable_write _).decides fun _ => ?_
  exact (stable_setStage _).decides fun _ => decides_true

theorem stepSecurityResult_atomic : AtomicM (stepSecurityResult : ClientM E Bool) := by
  refine atomic_need 4 (Decides.atomic ?_)
  refine (stable_u32 _).decides fun _ => (stable_consume _).decides fun _ => ?_
  refine (stable_field _ fun _ _ => rfl).decides fun _ => decides_ite ?_ (decides_ite ?_ (decides_failStep _))
  · exact stable_sendClientInit.decides fun _ => decides_true
  · exact (stable_setStage _).decides fun _ => decides_true

theorem stepSecurityReason_atomic : AtomicM (stepSecurityReason : ClientM E Bool) := by
  refine atomic_need 4 (Atomic.after (stable_u32 _) (readOnly_u32 _) fun length => ?_)
  refine atomic_ite (atomic_failStep _) (atomic_need _ (Decides.atomic ?_))
  exact (stable_bytes _ _).decides fun _ => (stable_consume _).decides fun _ => decides_failStep _

theorem stable_requestUpdate (incremental : Bool) : StableM (requestUpdate incremental : ClientM E Unit) := by
  refine (stable_field _ fun _ _ => rfl).bind fun _ => (stable_field _ fun _ _ => rfl).bind fun _ => ?_
  exact stable_ite (stable_pure _) (stable_write _)

theorem stable_sendPixelFormatAndEncodings : StableM (sendPixelFormatAndEncodings : ClientM E Unit) :=
  (stable_field _ fun _ _ => rfl).bind fun _ => stable_write _

theorem stepServerInit_atomic : AtomicM (stepServerInit : ClientM E Bool) := by
  refine atomic_need 24 (Atomic.after (stable_u32 _) (readOnly_u32 _) fun length => ?_)
  refine atomic_ite (atomic_failStep _) (atomic_need _ (Decides.atomic ?_))
  refine (stable_u16 _).decides fun _ => (stable_u16 _).decides fun _ => (stable_bytes _ _).decides fun _ => ?_
  refine (stable_modify fun _ _ => rfl).decides fun _ => (stable_consume _).decides fun _ => ?_
  refine decides_ite (decides_failStep _) ((stable_modify fun _ _ => rfl).decides fun _ => ?_)
  refine stable_sendPixelFormatAndEncodings.decides fun _ => (stable_setStage _).decides fun _ => ?_
  refine (stable_requestUpdate _).decides fun _ => (stable_emit _).decides fun _ => decides_true

end LvdTerm.Vnc
