import LvdTerm.Vnc.RectResumable

/-!
# VNC client: Tight rectangles can be resumed

`stepTight` resets the streams the control byte asks for and then looks whether the rest
has arrived. If it has not, the next attempt resets the same streams again, before
anything has been inflated from them: resetting twice is resetting once.
-/
namespace LvdTerm.Vnc

open Lib Lib.Inbox

variable {E : Env}

/-! ## Resetting again -/

theorem InflateState.reset_again {s t : InflateState E} (h : s.reset = some t) : t.reset = some t := by
  obtain ⟨zs⟩ := s
  unfold InflateState.reset at h
  cases zs with
  | none =>
    obtain ⟨z, hz, rfl⟩ := Option.map_eq_some_iff.mp h
    simp only [InflateState.reset, E.zlib.init_reset z hz, Option.map_some]
  | some zs =>
    obtain ⟨z, hz, rfl⟩ := Option.map_eq_some_iff.mp h
    simp only [InflateState.reset, E.zlib.reset_reset zs z hz, Option.map_some]

/-- Stream `i` is not to be reset, or resetting it changes nothing. -/
def Settled (control : UInt8) (streams : Fin 4 → Option (InflateState E)) (i : Fin 4) : Prop :=
  control.toNat / 2 ^ i.val % 2 = 1 → ∃ s, streams i = some s ∧ s.reset = some s

theorem Settled.of_eq {control : UInt8} {streams streams' : Fin 4 → Option (InflateState E)} {i : Fin 4}
    (h : Settled control streams i) (he : streams' i = streams i) : Settled control streams' i := by
  intro hasked
  rw [he]
  exact h hasked

theorem resetIfAsked_done {control : UInt8} {i : Fin 4} {c c' : VncClient E}
    (h : resetIfAsked control i c = .ok (true, c')) :
    ∃ streams, c' = { c with tightStreams := streams } ∧ Settled control streams i ∧
      ∀ j, j ≠ i → streams j = c.tightStreams j := by
  unfold resetIfAsked at h
  split at h
  · rw [Action.bind_of_ok (Action.gets_apply _ _)] at h
    cases hr : resetStream c.tightStreams i with
    | none =>
      simp only [hr] at h
      obtain ⟨⟨⟩, c₁, _, h₂⟩ := Action.bind_eq_ok h
      obtain ⟨⟨⟩, c₂, _, h₃⟩ := Action.bind_eq_ok h₂
      cases h₃
    | some s =>
      simp only [hr] at h
      cases h
      refine ⟨_, rfl, fun _ => ⟨s, if_pos rfl, InflateState.reset_again hr⟩, fun j hj => if_neg hj⟩
  · rename_i hno
    cases h
    exact ⟨c.tightStreams, rfl, fun hasked => absurd hasked hno, fun _ _ => rfl⟩

theorem resetIfAsked_settled {control : UInt8} {i : Fin 4} {c : VncClient E}
    (h : Settled control c.tightStreams i) : resetIfAsked control i c = .ok (true, c) := by
  unfold resetIfAsked
  split
  · rename_i hasked
    obtain ⟨s, hs, hreset⟩ := h hasked
    have hstream : resetStream c.tightStreams i = some s := by rw [resetStream, hs]; exact hreset
    have hsame : (fun j => if j = i then some s else c.tightStreams j) = c.tightStreams := by
      funext j
      split
      · rename_i hj; rw [hj, hs]
      · rfl
    rw [Action.bind_of_ok (Action.gets_apply _ _)]
    simp only [hstream]
    rw [setStream, Action.bind_of_ok (Action.modify_apply _ _), hsame]
    rfl
  · rfl

theorem unless_done {m n : ClientM E Bool} {c c' : VncClient E}
    (h : (m >>= fun ok => if !ok then pure false else n) c = .ok (true, c')) :
    ∃ c₁, m c = .ok (true, c₁) ∧ n c₁ = .ok (true, c') := by
  obtain ⟨ok, c₁, h₁, h₂⟩ := Action.bind_eq_ok h
  cases ok with
  | false => cases h₂
  | true => exact ⟨c₁, h₁, h₂⟩

theorem resetStreams_done {control : UInt8} {c c' : VncClient E} (h : resetStreams control c = .ok (true, c')) :
    ∃ streams, c' = { c with tightStreams := streams } ∧ ∀ i, Settled control streams i := by
  obtain ⟨c₁, h₁, h⟩ := unless_done h
  obtain ⟨c₂, h₂, h⟩ := unless_done h
  obtain ⟨c₃, h₃, h₄⟩ := unless_done h
  obtain ⟨s₁, rfl, hs₁, _⟩ := resetIfAsked_done h₁
  obtain ⟨s₂, rfl, hs₂, hk₂⟩ := resetIfAsked_done h₂
  obtain ⟨s₃, rfl, hs₃, hk₃⟩ := resetIfAsked_done h₃
  obtain ⟨s₄, rfl, hs₄, hk₄⟩ := resetIfAsked_done h₄
  refine ⟨s₄, rfl, fun i => ?_⟩
  match i with
  | 0 => exact ((hs₁.of_eq (hk₂ 0 (by decide))).of_eq (hk₃ 0 (by decide))).of_eq (hk₄ 0 (by decide))
  | 1 => exact (hs₂.of_eq (hk₃ 1 (by decide))).of_eq (hk₄ 1 (by decide))
  | 2 => exact hs₃.of_eq (hk₄ 2 (by decide))
  | 3 => exact hs₄

theorem resetStreams_settled {control : UInt8} {c : VncClient E} (h : ∀ i, Settled control c.tightStreams i) :
    resetStreams control c = .ok (true, c) := by
  unfold resetStreams
  rw [Action.bind_of_ok (resetIfAsked_settled (h 0)), if_neg (by decide),
    Action.bind_of_ok (resetIfAsked_settled (h 1)), if_neg (by decide),
    Action.bind_of_ok (resetIfAsked_settled (h 2)), if_neg (by decide)]
  exact resetIfAsked_settled (h 3)

theorem stable_setStream (i : Fin 4) (s : InflateState E) : StableM (setStream i s) := stable_modify fun _ _ => rfl

theorem decides_resetIfAsked (control : UInt8) (i : Fin 4) : DecidesM (resetIfAsked control i : ClientM E Bool) := by
  refine decides_ite ((stable_field _ fun _ _ => rfl).decides fun streams => ?_) decides_true
  cases resetStream streams i with
  | none => exact (stable_setStream _ _).decides fun _ => decides_failStep _
  | some s => exact (stable_setStream _ _).decides fun _ => decides_true

theorem decides_resetStreams (control : UInt8) : DecidesM (resetStreams control : ClientM E Bool) :=
  (decides_resetIfAsked _ _).unless <| (decides_resetIfAsked _ _).unless <|
    (decides_resetIfAsked _ _).unless (decides_resetIfAsked _ _)

/-! ## Looking ahead -/

theorem peek_compactLength (off : Nat) : PeekM (compactLength off : ClientM E (Option (Nat × Nat))) := by
  have hpure : ∀ p, PeekM (pure (some p) : ClientM E (Option (Nat × Nat))) := fun p =>
    (stable_pure _).peek (readOnly_pure _)
  refine peek_peek _ ((stable_u8 _).peek_bind (readOnly_u8 _) fun b₀ => peek_ite (hpure _) ?_)
  refine peek_peek _ ((stable_u8 _).peek_bind (readOnly_u8 _) fun b₁ => peek_ite (hpure _) ?_)
  exact peek_peek _ ((stable_u8 _).peek_bind (readOnly_u8 _) fun b₂ => hpure _)

theorem stable_readTightPalette (pos n : Nat) : StableM (readTightPalette pos n : ClientM E (List QRgb)) :=
  stable_foldRange (fun _ _ => (stable_u8 _).bind fun _ => (stable_u8 _).bind fun _ =>
    (stable_u8 _).bind fun _ => stable_pure _) _ _

theorem readOnly_readTightPalette (pos n : Nat) : ReadOnly (readTightPalette pos n : ClientM E (List QRgb)) :=
  readOnly_foldRange (fun _ _ => ReadOnly.bind (readOnly_u8 _) fun _ => ReadOnly.bind (readOnly_u8 _) fun _ =>
    ReadOnly.bind (readOnly_u8 _) fun _ => readOnly_pure _) _ _

theorem peek_tightFilter (control : UInt8) : PeekM (tightFilter control : ClientM E (Option FilterHeader)) := by
  have hpure : ∀ f, PeekM (pure (some f) : ClientM E (Option FilterHeader)) := fun f =>
    (stable_pure _).peek (readOnly_pure _)
  refine peek_ite (hpure _) (peek_peek _ ((stable_u8 _).peek_bind (readOnly_u8 _) fun filter => ?_))
  refine peek_ite ?_ (peek_ite (hpure _) (hpure _))
  refine peek_peek _ ((stable_u8 _).peek_bind (readOnly_u8 _) fun size => peek_peek _ ?_)
  exact (stable_readTightPalette _ _).peek_bind (readOnly_readTightPalette _ _) fun _ => hpure _

theorem readOnly_int32 (n : Nat) : ReadOnly (int32 n : ClientM E Nat) := by
  intro c v c' h
  unfold int32 at h
  split at h
  · cases h; rfl
  · cases h

/-! ## Pixels -/

theorem stable_rgbRows (r : Rect) (rowBytes : Nat) (data : List UInt8) :
    StableM (rgbRows r rowBytes data : ClientM E Unit) := by
  refine stable_forRange (fun y => (stable_int32 _).bind fun row => stable_forRange (fun x => ?_) _) _
  exact (stable_byteOf _ _).bind fun _ => (stable_byteOf _ _).bind fun _ => (stable_byteOf _ _).bind fun _ =>
    stable_setPixel _ _ _

theorem stable_jpegRows (r : Rect) (data : List UInt8) : StableM (jpegRows r data : ClientM E Unit) := by
  refine stable_forRange (fun y => stable_forRange (fun x => ?_) _) _
  exact (stable_byteOf _ _).bind fun _ => (stable_byteOf _ _).bind fun _ => (stable_byteOf _ _).bind fun _ =>
    stable_setPixel _ _ _

theorem stable_paletteAt (palette : List QRgb) (i : Nat) : StableM (paletteAt palette i : ClientM E QRgb) :=
  stable_of_commutes fun x c => by unfold paletteAt; split <;> rfl

theorem stable_paletteRows (r : Rect) (f : TightFilter) (data : List UInt8) :
    StableM (paletteRows r f data : ClientM E Unit) := by
  have hpixel : ∀ index x y, StableM (do
      let color ← paletteAt f.palette index
      setPixel x y color : ClientM E Unit) := fun index x y =>
    (stable_paletteAt _ _).bind fun _ => stable_setPixel _ _ _
  refine stable_forRange (fun y => (stable_int32 _).bind fun row => stable_forRange (fun x => ?_) _) _
  refine stable_ite ?_ ?_
  · exact (stable_byteOf _ _).bind fun _ => hpixel _ _ _
  · exact (stable_byteOf _ _).bind fun _ => hpixel _ _ _

theorem stable_gradientPixel (row : Nat) (prev data : List UInt8) (x : Nat) (cur : List UInt8) (k : Nat) :
    StableM (gradientPixel row prev data x cur k : ClientM E UInt8) := by
  refine (stable_byteOf _ _).bind fun _ => (stable_byteOf _ _).bind fun _ => stable_ite (stable_pure _) ?_
  exact (stable_byteOf _ _).bind fun _ => (stable_byteOf _ _).bind fun _ => stable_pure _

theorem stable_gradientRows (r : Rect) (rowBytes : Nat) (data : List UInt8) :
    StableM (gradientRows r rowBytes data : ClientM E Unit) := by
  refine (stable_foldRange (fun y prev => (stable_int32 _).bind fun row => ?_) _ _).bind fun _ => stable_pure ()
  refine stable_foldRange (fun x cur => ?_) _ _
  refine (stable_gradientPixel ..).bind fun _ => (stable_gradientPixel ..).bind fun _ => ?_
  exact (stable_gradientPixel ..).bind fun _ => (stable_setPixel _ _ _).bind fun _ => stable_pure _

theorem stable_tightPixels (r : Rect) (f : TightFilter) (data : List UInt8) :
    StableM (tightPixels r f data : ClientM E Unit) :=
  stable_ite (stable_paletteRows _ _ _) (stable_ite (stable_gradientRows _ _ _) (stable_rgbRows _ _ _))

/-! ## The kinds of Tight rectangles -/

theorem tightFill_atomic : AtomicM (tightFill : ClientM E Bool) := by
  refine atomic_need _ (Decides.atomic ((stable_field _ fun _ _ => rfl).decides fun _ => ?_))
  refine (stable_u8 _).decides fun _ => (stable_u8 _).decides fun _ => (stable_u8 _).decides fun _ => ?_
  exact (stable_fillRect _ _ _ _ _).decides fun _ => (stable_consume _).decides fun _ => decides_true

theorem tightJpeg_atomic : AtomicM (tightJpeg : ClientM E Bool) := by
  refine (peek_compactLength _).atomic rfl fun ⟨n, length⟩ => atomic_need _ (Decides.atomic ?_)
  refine (stable_field _ fun _ _ => rfl).decides fun rect => (stable_bytes _ _).decides fun data => ?_
  cases E.decodeJpegToRgb data with
  | none => exact decides_failStep _
  | some j =>
    refine decides_ite (decides_failStep _) ((stable_jpegRows _ _).decides fun _ => ?_)
    exact (stable_consume _).decides fun _ => decides_true

theorem stable_tightStream (i : Fin 4) : StableM (tightStream i : ClientM E (Option (InflateState E))) := by
  refine (stable_field _ fun _ _ => rfl).bind fun streams => ?_
  cases streams i with
  | some s => exact stable_pure _
  | none =>
    cases resetStream streams i with
    | none => exact (stable_setStream _ _).bind fun _ => stable_pure _
    | some s => exact (stable_setStream _ _).bind fun _ => stable_pure _

theorem tightCompressed_atomic (r : Rect) (f : TightFilter) (stream : Fin 4) (dataSize : Nat) :
    AtomicM (tightCompressed r f stream dataSize : ClientM E Bool) := by
  refine (peek_compactLength _).atomic rfl fun ⟨n, length⟩ => atomic_need _ (Decides.atomic ?_)
  refine (stable_tightStream _).decides fun state => ?_
  cases state with
  | none => exact decides_failStep _
  | some state =>
    refine (stable_bytes _ _).decides fun input => ?_
    cases state.zs with
    | none => exact decides_failStep _
    | some zs =>
      refine (stable_setStream _ _).decides fun _ => decides_ite (decides_failStep _) ?_
      exact (stable_tightPixels _ _ _).decides fun _ => (stable_consume _).decides fun _ => decides_true

theorem tightPlain_atomic (r : Rect) (f : TightFilter) (dataSize : Nat) :
    AtomicM (tightPlain r f dataSize : ClientM E Bool) := by
  refine atomic_need _ (Decides.atomic ((stable_bytes _ _).decides fun _ => ?_))
  exact (stable_tightPixels _ _ _).decides fun _ => (stable_consume _).decides fun _ => decides_true

theorem tightBasic_atomic (control : UInt8) : AtomicM (tightBasic control : ClientM E Bool) := by
  refine (peek_tightFilter _).atomic rfl fun header => ?_
  cases header with
  | unsupported => exact atomic_failStep _
  | ok f =>
    refine Atomic.after (stable_field _ fun _ _ => rfl) (readOnly_gets _) fun rect => ?_
    refine Atomic.after (stable_int32 _) (readOnly_int32 _) fun rowBytes => ?_
    refine Atomic.after (stable_int32 _) (readOnly_int32 _) fun dataSize => ?_
    exact atomic_ite (tightPlain_atomic _ _ _) (tightCompressed_atomic _ _ _ _)

theorem tightKind_atomic (control : UInt8) : AtomicM (tightKind control : ClientM E Bool) :=
  atomic_ite tightFill_atomic <| atomic_ite tightJpeg_atomic <|
    atomic_ite (atomic_failStep _) (tightBasic_atomic _)

/-- What waiting inside a Tight rectangle has changed. -/
theorem tightBody_waits {control : UInt8} {c c' : VncClient E}
    (h : (resetStreams control >>= fun ok => if ok then tightKind control else pure false) c = .ok (false, c'))
    (hh : (inbox E).halted c' = false) : ∃ streams, c' = { c with tightStreams := streams } := by
  obtain ⟨ok, c₁, h₁, h₂⟩ := Action.bind_eq_ok h
  cases ok with
  | false =>
    cases h₂
    rw [(decides_resetStreams control).final h₁] at hh
    cases hh
  | true =>
    cases (tightKind_atomic control).unchanged h₂ hh
    obtain ⟨streams, rfl, _⟩ := resetStreams_done h₁
    exact ⟨streams, rfl⟩

theorem stepTight_resumes : (inbox E).Resumes ReadAhead (stepTight : ClientM E Bool) := by
  have hlive : ∀ {control : UInt8} {c c' : VncClient E}, resetStreams control c = .ok (true, c') →
      (inbox E).halted c' = (inbox E).halted c := by
    intro control c c' h
    obtain ⟨streams, rfl, _⟩ := resetStreams_done h
    rfl
  have hagain : ∀ {control : UInt8} {c c' : VncClient E}, resetStreams control c = .ok (true, c') →
      resetStreams control c' = .ok (true, c') := by
    intro control c c' h
    obtain ⟨streams, rfl, hs⟩ := resetStreams_done h
    exact resetStreams_settled hs
  have hbody : ∀ control : UInt8, (inbox E).Resumes ReadAhead
      (resetStreams control >>= fun ok => if ok then tightKind control else pure false) := fun control =>
    Resumes.again (decides_resetStreams control) hlive hagain (tightKind_atomic control)
  refine Resumes.guard (Resumes.after (stable_u8 0) (readOnly_u8 0) hbody ?_) ?_
  · intro c control c' hu8 hw hh
    obtain ⟨streams, rfl⟩ := tightBody_waits hw hh
    obtain ⟨hb, _⟩ := u8_eq_ok hu8
    unfold u8
    simp only [hb]
  · intro c c' h hh
    obtain ⟨control, c₁, hu8, hw⟩ := Action.bind_eq_ok h
    obtain ⟨_, rfl⟩ := u8_eq_ok hu8
    obtain ⟨streams, rfl⟩ := tightBody_waits hw hh
    rfl

theorem stepTight_waits {c c' : VncClient E} (h : stepTight c = .ok (false, c'))
    (hh : (inbox E).halted c' = false) : SameRect c c' := by
  unfold stepTight need avail at h
  rw [Action.bind_of_ok (Action.gets_apply _ _)] at h
  split at h
  · cases h
    exact .refl _
  · obtain ⟨control, c₁, hu8, hw⟩ := Action.bind_eq_ok h
    obtain ⟨_, rfl⟩ := u8_eq_ok hu8
    obtain ⟨streams, rfl⟩ := tightBody_waits hw hh
    exact ⟨rfl, rfl, rfl⟩

end LvdTerm.Vnc
