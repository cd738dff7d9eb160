import LvdTerm.Vnc.DecodeFrame

/-!
# VNC client: decoders use up data

A decoder that completes a rectangle has used up at least one byte (`Eats`), except that a Raw
rectangle without pixels and a Hextile rectangle without rows need none.
-/
namespace LvdTerm.Vnc

open Lib Lib.Action Lib.Frame

variable {E : Env} {c c' : VncClient E}

/-! ## Using up data -/

/-- There is no more data than before. -/
def draining : Frame (VncClient E) where
  rel c c' := c'.buf.length ≤ c.buf.length
  refl _ := Nat.le_refl _
  trans h h' := Nat.le_trans h' h

abbrev Drains {α : Type} (m : ClientM E α) : Prop := draining.Keeps m

/-- A unit that completes has used up data, and none has brought more. -/
def Eats (m : ClientM E Bool) : Prop := ∀ c done c', m c = .ok (done, c') → c'.buf.length + done.toNat ≤ c.buf.length

section Units

variable {α β : Type}

theorem Eats.lt {m : ClientM E Bool} (hm : Eats m) (h : m c = .ok (true, c')) : c'.buf.length < c.buf.length := hm c true c' h

theorem Eats.drains {m : ClientM E Bool} (hm : Eats m) : Drains m := by
  intro c done c' h
  exact Nat.le_trans (Nat.le_add_right _ _) (hm c done c' h)

theorem eats_wait : Eats (pure false : ClientM E Bool) := by
  intro c done c' h
  cases h
  exact Nat.le_refl _

theorem eats_ite {p : Prop} [Decidable p] {m n : ClientM E Bool} (hm : p → Eats m) (hn : ¬ p → Eats n) :
    Eats (if p then m else n) := by
  split
  · exact hm ‹_›
  · exact hn ‹_›

/-- What is looked up may be known to satisfy `P`. -/
theorem Eats.after_value {m : ClientM E α} {k : α → ClientM E Bool} {P : α → Prop} (hm : Drains m)
    (hP : ∀ c a c', m c = .ok (a, c') → P a) (hk : ∀ a, P a → Eats (k a)) : Eats (m >>= k) := by
  intro c done c' h
  obtain ⟨a, c₁, h₁, h₂⟩ := bind_eq_ok h
  have hle : c₁.buf.length ≤ c.buf.length := hm c a c₁ h₁
  exact Nat.le_trans (hk a (hP c a c₁ h₁) c₁ done c' h₂) hle

theorem Eats.after {m : ClientM E α} {k : α → ClientM E Bool} (hm : Drains m) (hk : ∀ a, Eats (k a)) : Eats (m >>= k) :=
  Eats.after_value (P := fun _ => True) hm (fun _ _ _ _ => trivial) fun a _ => hk a

/-- A unit that eats, and more behind it. -/
theorem Eats.before {m k : ClientM E Bool} (hm : Eats m) (hk : Drains k) : Eats (m >>= fun done => if done then k else pure false) := by
  intro c last c' h
  obtain ⟨done, c₁, h₁, h₂⟩ := bind_eq_ok h
  have hfirst := hm c done c₁ h₁
  cases done with
  | false =>
    cases h₂
    exact hfirst
  | true =>
    have hle : c'.buf.length ≤ c₁.buf.length := hk c₁ last c' h₂
    have hlast := last.toNat_le
    simp only [Bool.toNat_true] at hfirst
    omega

theorem eats_need {m : ClientM E Bool} (n : Nat) (hm : Eats m) : Eats (need n m) :=
  Eats.after (keeps_gets _) fun _ => eats_ite (fun _ => eats_wait) (fun _ => hm)

theorem eats_consume {n : Nat} {k : ClientM E Bool} (hn : 0 < n) (hk : Drains k) : Eats (consume n >>= fun _ => k) := by
  intro c done c' h
  obtain ⟨⟨⟩, c₁, h₁, h₂⟩ := bind_eq_ok h
  have hle : c'.buf.length ≤ c₁.buf.length := hk c₁ done c' h₂
  have hdone := done.toNat_le
  unfold consume at h₁
  split at h₁
  · cases h₁
    simp only [List.length_drop] at hle
    omega
  · cases h₁

/-! ## Drawing -/

theorem drains_modify {f : VncClient E → VncClient E} (h : ∀ c, (f c).buf = c.buf) : Drains (Action.modify f) :=
  keeps_modify fun c => Nat.le_of_eq (by rw [h])

theorem drains_fail (message : String) : Drains (fail message : ClientM E Unit) := by
  intro c a c' h
  cases hf : c.failedAlready with
  | true =>
    rw [fail_again message hf] at h
    cases h
    exact Nat.le_refl _
  | false =>
    rw [fail_apply message hf] at h
    cases h
    exact Nat.le_refl _

theorem drains_failStep (message : String) : Drains (failStep message : ClientM E Bool) :=
  (drains_fail message).bind fun _ => keeps_pure false

theorem eats_failStep (message : String) : Eats (failStep message : ClientM E Bool) :=
  Eats.after (drains_fail message) fun _ => eats_wait

theorem drains_setPixel (x y : Nat) (color : QRgb) : Drains (setPixel x y color : ClientM E Unit) :=
  keeps_check (p := fun c : VncClient E => x < c.work.width ∧ y < c.work.height) fun _ _ => Nat.le_refl _

theorem drains_int32 (n : Nat) : Drains (int32 n : ClientM E Nat) := keeps_of_readOnly (readOnly_int32 n)

theorem drains_bytes (off n : Nat) : Drains (bytes off n : ClientM E (List UInt8)) :=
  keeps_check (p := fun c : VncClient E => off + n ≤ c.buf.length) fun _ _ => Nat.le_refl _

theorem drains_byteOf (data : List UInt8) (i : Nat) : Drains (byteOf data i : ClientM E UInt8) :=
  keeps_of_readOnly fun h => by
    unfold byteOf at h
    split at h
    · cases h; rfl
    · cases h

theorem drains_fillRect (x y w h : Nat) (color : QRgb) : Drains (fillRect x y w h color : ClientM E Unit) :=
  keeps_forRange fun _ _ => keeps_forRange fun _ _ => drains_setPixel _ _ _

theorem drains_addDirty (r : Rect) : Drains (addDirty r : ClientM E Unit) := drains_modify fun _ => rfl

/-- The last lines of a decoder. -/
theorem eats_finish {n : Nat} (hn : 0 < n) : Eats (do
    consume n
    pure true : ClientM E Bool) :=
  eats_consume hn (keeps_pure true)

end Units

/-! ## Decoders -/

section Decoders

/-- A rectangle without pixels is complete at once. -/
theorem decodeRaw_eats (harea : 0 < c.rect.w * c.rect.h * 4) (h : decodeRaw c = .ok (true, c')) : c'.buf.length < c.buf.length := by
  have hrest : Eats (need (c.rect.w * c.rect.h * 4) do
      Action.forRange c.rect.h fun row => do
        let base ← int32 (row * c.rect.w * 4)
        Action.forRange c.rect.w fun col => do
          let color ← pixelAt (base + col * 4)
          setPixel (c.rect.x + col) (c.rect.y + row) color
      addDirty c.rect
      consume (c.rect.w * c.rect.h * 4)
      pure true : ClientM E Bool) := by
    refine eats_need _ (Eats.after ?_ fun _ => Eats.after (drains_addDirty _) fun _ => eats_finish harea)
    refine keeps_forRange fun row _ => (drains_int32 _).bind fun base => keeps_forRange fun col _ => ?_
    exact (keeps_of_readOnly (readOnly_pixelAt _)).bind fun color => drains_setPixel _ _ _
  exact hrest.lt h

theorem decodeCopyRect_eats : Eats (decodeCopyRect : ClientM E Bool) := by
  refine eats_need _ (Eats.after (keeps_of_readOnly (readOnly_u16 _)) fun x => ?_)
  refine Eats.after (keeps_of_readOnly (readOnly_u16 _)) fun y => Eats.after (keeps_gets _) fun rect => ?_
  refine Eats.after (keeps_gets _) fun work => eats_consume (by decide) ?_
  refine keeps_ite (fun _ => drains_failStep _) (fun _ => Keeps.bind ?_ fun _ => ?_)
  · exact keeps_forRange fun _ _ => keeps_forRange fun _ _ => drains_setPixel _ _ _
  · exact (drains_addDirty _).bind fun _ => keeps_pure true

/-! ### Hextile -/

theorem drains_hextileSubrect (t : Rect) (fg : QRgb) (coloured : Bool) (pos : Option Nat) :
    Drains (hextileSubrect t fg coloured pos : ClientM E (Option Nat)) := by
  cases pos with
  | none => exact keeps_pure none
  | some pos =>
    have hrest (colour : QRgb) (pos : Nat) : Drains (do
        let xy ← u8 pos
        let wh ← u8 (pos + 1)
        if xy.toNat / 16 + (wh.toNat / 16 + 1) > t.w ∨ xy.toNat % 16 + (wh.toNat % 16 + 1) > t.h then
          fail "The server sent an invalid Hextile subrectangle"
          pure none
        else
          fillRect (t.x + xy.toNat / 16) (t.y + xy.toNat % 16) (wh.toNat / 16 + 1) (wh.toNat % 16 + 1) colour
          pure (some (pos + 2)) : ClientM E (Option Nat)) := by
      refine (keeps_of_readOnly (readOnly_u8 _)).bind fun xy => (keeps_of_readOnly (readOnly_u8 _)).bind fun wh => ?_
      exact keeps_ite (fun _ => (drains_fail _).bind fun _ => keeps_pure none)
        (fun _ => (drains_fillRect _ _ _ _ _).bind fun _ => keeps_pure _)
    unfold hextileSubrect
    cases coloured with
    | true => exact (keeps_of_readOnly (readOnly_pixelAt _)).bind fun colour => hrest colour (pos + 4)
    | false => exact (keeps_pure fg).bind fun colour => hrest colour pos

/-- The position only moves on. -/
theorem hextileSubrect_pos {t : Rect} {fg : QRgb} {coloured : Bool} {pos p : Nat}
    (h : hextileSubrect t fg coloured (some pos) c = .ok (some p, c')) : pos < p := by
  -- the subrectangle behind its colour, at `q`
  have hrest {colour : QRgb} {q : Nat} {c : VncClient E} (h : (do
      let xy ← u8 q
      let wh ← u8 (q + 1)
      if xy.toNat / 16 + (wh.toNat / 16 + 1) > t.w ∨ xy.toNat % 16 + (wh.toNat % 16 + 1) > t.h then
        fail "The server sent an invalid Hextile subrectangle"
        pure none
      else
        fillRect (t.x + xy.toNat / 16) (t.y + xy.toNat % 16) (wh.toNat / 16 + 1) (wh.toNat % 16 + 1) colour
        pure (some (q + 2)) : ClientM E (Option Nat)) c = .ok (some p, c')) : p = q + 2 := by
    obtain ⟨xy, c₂, -, h⟩ := bind_eq_ok h
    obtain ⟨wh, c₃, -, h⟩ := bind_eq_ok h
    split at h
    · obtain ⟨_, c₄, -, h⟩ := bind_eq_ok h
      cases h
    · obtain ⟨_, c₄, -, h⟩ := bind_eq_ok h
      cases h
      rfl
  unfold hextileSubrect at h
  cases coloured with
  | true =>
    obtain ⟨colour, c₁, -, h⟩ := bind_eq_ok h
    have hp : p = pos + 4 + 2 := hrest h
    omega
  | false =>
    obtain ⟨colour, c₁, -, h⟩ := bind_eq_ok h
    have hp : p = pos + 2 := hrest h
    omega

theorem hextileSubrects_pos {t : Rect} {fg : QRgb} {coloured : Bool} {pos p n : Nat}
    (h : Action.foldRange (fun _ => hextileSubrect t fg coloured) n (some pos) c = .ok (some p, c')) : pos ≤ p := by
  induction n generalizing p c' with
  | zero =>
    cases h
    exact Nat.le_refl _
  | succ n ih =>
    obtain ⟨before, c₁, h₁, h₂⟩ := bind_eq_ok h
    cases before with
    | none => cases h₂
    | some q => exact Nat.le_trans (ih h₁) (Nat.le_of_lt (hextileSubrect_pos h₂))

theorem hextileColour_pos {specified : Bool} {pos p : Nat} {old colour : QRgb}
    (h : hextileColour specified pos old c = .ok (some (colour, p), c')) : pos ≤ p := by
  unfold hextileColour peek at h
  split at h
  · obtain ⟨a, c₁, -, h⟩ := bind_eq_ok h
    split at h
    · cases h
    · obtain ⟨b, c₂, -, h⟩ := bind_eq_ok h
      cases h
      omega
  · cases h
    exact Nat.le_refl _

theorem hextileCount_pos {specified : Bool} {pos p count : Nat}
    (h : hextileCount specified pos c = .ok (some (count, p), c')) : pos ≤ p := by
  unfold hextileCount peek at h
  split at h
  · obtain ⟨a, c₁, -, h⟩ := bind_eq_ok h
    split at h
    · cases h
    · obtain ⟨b, c₂, -, h⟩ := bind_eq_ok h
      cases h
      omega
  · cases h
    exact Nat.le_refl _

theorem eats_hextileCommit (t : Rect) (bg fg : QRgb) (coloured : Bool) (subrects : Nat) {pos : Nat} (hpos : 0 < pos) :
    Eats (hextileCommit t bg fg coloured subrects pos : ClientM E Bool) := by
  refine Eats.after (drains_modify fun _ => rfl) fun _ => Eats.after (drains_fillRect _ _ _ _ _) fun _ => ?_
  refine Eats.after_value (P := fun p : Option Nat => ∀ q, p = some q → 0 < q) ?_ (fun c p c' h => ?_) (fun p hp => ?_)
  · exact keeps_foldRange (fun _ _ pos => drains_hextileSubrect _ _ _ pos) _
  · rintro q rfl
    exact Nat.lt_of_lt_of_le hpos (hextileSubrects_pos h)
  · cases p with
    | none => exact eats_wait
    | some q => exact eats_finish (hp q rfl)

theorem stepHextileTile_eats : Eats (stepHextileTile : ClientM E Bool) := by
  refine eats_need _ (Eats.after (keeps_gets _) fun t => Eats.after (keeps_of_readOnly (readOnly_u8 _)) fun sub => ?_)
  refine eats_ite (fun _ => eats_need _ (Eats.after ?_ fun _ => eats_finish (by omega))) (fun _ => ?_)
  · refine keeps_forRange fun row _ => keeps_forRange fun col _ => ?_
    exact (keeps_of_readOnly (readOnly_pixelAt _)).bind fun color => drains_setPixel _ _ _
  refine Eats.after (keeps_gets _) fun bg => Eats.after (keeps_gets _) fun fg => ?_
  refine Eats.after_value (P := fun v : Option (QRgb × Nat) => ∀ colour p, v = some (colour, p) → 1 ≤ p)
    (keeps_of_readOnly (peek_hextileColour _ _ _).readOnly) (fun c v c' h colour p hv => hextileColour_pos (hv ▸ h)) fun background hb => ?_
  rcases background with _ | ⟨bg, pos⟩
  · exact eats_wait
  refine Eats.after_value (P := fun v : Option (QRgb × Nat) => ∀ colour p, v = some (colour, p) → pos ≤ p)
    (keeps_of_readOnly (peek_hextileColour _ _ _).readOnly) (fun c v c' h colour p hv => hextileColour_pos (hv ▸ h)) fun foreground hf => ?_
  rcases foreground with _ | ⟨fg, pos'⟩
  · exact eats_wait
  refine Eats.after_value (P := fun v : Option (Nat × Nat) => ∀ count p, v = some (count, p) → pos' ≤ p)
    (keeps_of_readOnly (peek_hextileCount _ _).readOnly) (fun c v c' h count p hv => hextileCount_pos (hv ▸ h)) fun count hc => ?_
  rcases count with _ | ⟨subrects, pos''⟩
  · exact eats_wait
  have h₁ := hb bg pos rfl
  have h₂ := hf fg pos' rfl
  have h₃ := hc subrects pos'' rfl
  exact eats_need _ (eats_hextileCommit _ _ _ _ _ (by omega))

/-- A rectangle that has rows of tiles left eats at least one tile. -/
theorem decodeHextile_eats (hrow : c.tileY < c.rect.h) (h : decodeHextile c = .ok (true, c')) : c'.buf.length < c.buf.length := by
  have hrest : Eats (stepHextileTile >>= fun done => if done then (do
      nextHextile
      hextileLoop (hextilesLeft c)) else pure false : ClientM E Bool) := by
    refine Eats.before stepHextileTile_eats (Keeps.bind ?_ fun _ => ?_)
    · exact drains_modify fun d => by split <;> rfl
    · exact keeps_loopWhile stepHextileTile_eats.drains (drains_modify fun d => by split <;> rfl) _
  have hloop : hextileLoop (hextilesLeft c + 1) c = (stepHextileTile >>= fun done => if done then (do
      nextHextile
      hextileLoop (hextilesLeft c)) else pure false : ClientM E Bool) c := by
    unfold hextileLoop
    exact Inbox.loopWhile_succ (s := c) (decide_eq_true hrow) _
  exact hrest.lt (hloop.symm.trans h)

/-! ### Tight -/

theorem drains_setStream (i : Fin 4) (s : InflateState E) : Drains (setStream i s) := drains_modify fun _ => rfl

theorem drains_resetIfAsked (control : UInt8) (i : Fin 4) : Drains (resetIfAsked control i : ClientM E Bool) := by
  refine keeps_ite (fun _ => (keeps_gets _).bind fun streams => ?_) (fun _ => keeps_pure true)
  cases resetStream streams i with
  | none => exact (drains_setStream _ _).bind fun _ => drains_failStep _
  | some s => exact (drains_setStream _ _).bind fun _ => keeps_pure true

theorem drains_resetStreams (control : UInt8) : Drains (resetStreams control : ClientM E Bool) := by
  refine (drains_resetIfAsked _ _).bind fun _ => keeps_ite (fun _ => keeps_pure false) (fun _ => ?_)
  refine (drains_resetIfAsked _ _).bind fun _ => keeps_ite (fun _ => keeps_pure false) (fun _ => ?_)
  refine (drains_resetIfAsked _ _).bind fun _ => keeps_ite (fun _ => keeps_pure false) (fun _ => ?_)
  exact drains_resetIfAsked _ _

theorem drains_tightStream (i : Fin 4) : Drains (tightStream i : ClientM E (Option (InflateState E))) := by
  refine (keeps_gets _).bind fun streams => ?_
  cases streams i with
  | some s => exact keeps_pure _
  | none =>
    cases resetStream streams i with
    | none => exact (drains_setStream _ _).bind fun _ => keeps_pure _
    | some s => exact (drains_setStream _ _).bind fun _ => keeps_pure _

theorem drains_rgbPixel (x y : Nat) (data : List UInt8) (i j k : Nat) : Drains (do
    let red ← byteOf data i
    let green ← byteOf data j
    let blue ← byteOf data k
    setPixel x y (qRgb red green blue) : ClientM E Unit) :=
  (drains_byteOf _ _).bind fun _ => (drains_byteOf _ _).bind fun _ => (drains_byteOf _ _).bind fun _ => drains_setPixel _ _ _

theorem drains_paletteAt (palette : List QRgb) (i : Nat) : Drains (paletteAt palette i : ClientM E QRgb) :=
  keeps_of_readOnly fun h => by
    unfold paletteAt at h
    split at h
    · cases h; rfl
    · cases h

theorem drains_tightPixels (r : Rect) (f : TightFilter) (data : List UInt8) : Drains (tightPixels r f data : ClientM E Unit) := by
  refine keeps_ite (fun _ => ?palette) (fun _ => keeps_ite (fun _ => ?gradient) (fun _ => ?copy))
  case palette =>
    refine keeps_forRange fun row _ => (drains_int32 _).bind fun base => keeps_forRange fun col _ => ?_
    have hcolor (index : Nat) : Drains (do
        let color ← paletteAt f.palette index
        setPixel (r.x + col) (r.y + row) color : ClientM E Unit) :=
      (drains_paletteAt _ _).bind fun color => drains_setPixel _ _ _
    refine keeps_ite (fun _ => ?_) (fun _ => ?_)
    · exact (drains_byteOf _ _).bind fun b => (keeps_pure _).bind fun index => hcolor index
    · exact (drains_byteOf _ _).bind fun b => (keeps_pure _).bind fun index => hcolor index
  case gradient =>
    have hbyte (row : Nat) (prev : List UInt8) (x : Nat) (cur : List UInt8) (k : Nat) :
        Drains (gradientPixel row prev data x cur k : ClientM E UInt8) := by
      refine (drains_byteOf _ _).bind fun _ => (drains_byteOf _ _).bind fun _ => ?_
      refine keeps_ite (fun _ => keeps_pure _) (fun _ => ?_)
      exact (drains_byteOf _ _).bind fun _ => (drains_byteOf _ _).bind fun _ => keeps_pure _
    refine Keeps.bind (keeps_foldRange (fun y _ prev => ?_) _) fun _ => keeps_pure ()
    refine (drains_int32 _).bind fun base => keeps_foldRange (fun x _ cur => ?_) _
    refine (hbyte _ _ _ _ _).bind fun _ => (hbyte _ _ _ _ _).bind fun _ => (hbyte _ _ _ _ _).bind fun _ => ?_
    exact (drains_setPixel _ _ _).bind fun _ => keeps_pure _
  case copy =>
    refine keeps_forRange fun row _ => (drains_int32 _).bind fun base => keeps_forRange fun col _ => ?_
    exact drains_rgbPixel _ _ _ _ _ _

theorem tightFilter_pos {control : UInt8} {f : TightFilter} (h : tightFilter control c = .ok (some (.ok f), c')) : 0 < f.pos := by
  unfold tightFilter peek at h
  split at h
  · cases h
    exact Nat.one_pos
  · obtain ⟨a, c₁, -, h⟩ := bind_eq_ok h
    split at h
    · cases h
    obtain ⟨filter, c₂, -, h⟩ := bind_eq_ok h
    split at h
    · obtain ⟨a, c₃, -, h⟩ := bind_eq_ok h
      split at h
      · cases h
      obtain ⟨size, c₄, -, h⟩ := bind_eq_ok h
      obtain ⟨a, c₅, -, h⟩ := bind_eq_ok h
      split at h
      · cases h
      obtain ⟨palette, c₆, -, h⟩ := bind_eq_ok h
      cases h
      exact Nat.lt_add_right _ (by decide)
    · split at h
      · cases h
      · cases h
        exact Nat.two_pos

theorem eats_tightJpeg : Eats (tightJpeg : ClientM E Bool) := by
  refine Eats.after (keeps_of_readOnly (peek_compactLength _).readOnly) fun header => ?_
  rcases header with _ | ⟨n, length⟩
  · exact eats_wait
  refine eats_need _ (Eats.after (keeps_gets _) fun rect => Eats.after (drains_bytes _ _) fun data => ?_)
  cases E.decodeJpegToRgb data with
  | none => exact eats_failStep _
  | some j =>
    refine eats_ite (fun _ => eats_failStep _) (fun _ => Eats.after ?_ fun _ => eats_finish (by omega))
    exact keeps_forRange fun row _ => keeps_forRange fun col _ => drains_rgbPixel _ _ _ _ _ _

theorem eats_tightCompressed (r : Rect) {f : TightFilter} (hpos : 0 < f.pos) (stream : Fin 4) (dataSize : Nat) :
    Eats (tightCompressed r f stream dataSize : ClientM E Bool) := by
  refine Eats.after (keeps_of_readOnly (peek_compactLength _).readOnly) fun header => ?_
  rcases header with _ | ⟨n, length⟩
  · exact eats_wait
  refine eats_need _ (Eats.after (drains_tightStream _) fun state => ?_)
  cases state with
  | none => exact eats_failStep _
  | some state =>
    refine Eats.after (drains_bytes _ _) fun input => ?_
    cases state.zs with
    | none => exact eats_failStep _
    | some zs =>
      refine Eats.after (drains_setStream _ _) fun _ => eats_ite (fun _ => eats_failStep _) (fun _ => ?_)
      exact Eats.after (drains_tightPixels _ _ _) fun _ => eats_finish (by omega)

theorem stepTight_eats : Eats (stepTight : ClientM E Bool) := by
  refine eats_need _ (Eats.after (keeps_of_readOnly (readOnly_u8 _)) fun control => ?_)
  refine Eats.after (drains_resetStreams _) fun ok => eats_ite (fun _ => ?_) (fun _ => eats_wait)
  refine eats_ite (fun _ => ?fill) (fun _ => eats_ite (fun _ => eats_tightJpeg) (fun _ => eats_ite (fun _ => eats_failStep _) (fun _ => ?basic)))
  case fill =>
    refine eats_need _ (Eats.after (keeps_gets _) fun rect => Eats.after (keeps_of_readOnly (readOnly_u8 _)) fun r => ?_)
    refine Eats.after (keeps_of_readOnly (readOnly_u8 _)) fun g => Eats.after (keeps_of_readOnly (readOnly_u8 _)) fun b => ?_
    exact Eats.after (drains_fillRect _ _ _ _ _) fun _ => eats_finish (by decide)
  case basic =>
    refine Eats.after_value (P := fun header : Option FilterHeader => ∀ f, header = some (.ok f) → 0 < f.pos)
      (keeps_of_readOnly (peek_tightFilter _).readOnly) (fun c v c' h f hv => tightFilter_pos (hv ▸ h)) fun header hpos => ?_
    rcases header with _ | _ | f
    · exact eats_wait
    · exact eats_failStep _
    have hpos := hpos f rfl
    refine Eats.after (keeps_gets _) fun rect => Eats.after (drains_int32 _) fun rowBytes => Eats.after (drains_int32 _) fun dataSize => ?_
    refine eats_ite (fun _ => eats_need _ (Eats.after (drains_bytes _ _) fun data => ?_)) (fun _ => eats_tightCompressed _ hpos _ _)
    exact Eats.after (drains_tightPixels _ _ _) fun _ => eats_finish (by omega)

/-! ### ZRLE -/

theorem drains_zrleState : Drains (zrleState : ClientM E (Option (InflateState E))) := by
  refine (keeps_gets _).bind fun stream => ?_
  cases stream with
  | some s => exact keeps_pure _
  | none =>
    cases (InflateState.mk none : InflateState E).reset with
    | none => exact Keeps.bind (drains_modify fun _ => rfl) fun _ => keeps_pure _
    | some s => exact Keeps.bind (drains_modify fun _ => rfl) fun _ => keeps_pure _

theorem drains_drawWrites (ws : List Write) : Drains (drawWrites ws : ClientM E Unit) := by
  induction ws with
  | nil => exact keeps_pure ()
  | cons w ws ih =>
    refine Keeps.bind ?_ fun _ => ih
    unfold drawWrite
    cases w.color with
    | none => exact keeps_throw _
    | some color => exact drains_setPixel _ _ _

theorem drains_zrleRect (payload : List UInt8) : Drains (zrleRect payload : ClientM E Bool) := by
  refine (keeps_gets _).bind fun rect => (drains_drawWrites _).bind fun _ => ?_
  cases (zrleDecode (zrleTiles rect) payload).finish with
  | ok rest => exact (drains_addDirty _).bind fun _ => keeps_pure true
  | corrupt => exact drains_failStep _
  | fault f => exact keeps_throw _

theorem stepZrle_eats : Eats (stepZrle : ClientM E Bool) := by
  refine eats_need _ (Eats.after (keeps_of_readOnly (readOnly_u32 _)) fun length => ?_)
  refine eats_ite (fun _ => eats_failStep _) (fun _ => eats_need _ (Eats.after drains_zrleState fun state => ?_))
  cases state with
  | none => exact eats_failStep _
  | some state =>
    refine Eats.after (drains_bytes _ _) fun input => ?_
    cases state.zs with
    | none => exact eats_failStep _
    | some zs =>
      refine Eats.after (drains_modify fun _ => rfl) fun _ => eats_ite (fun _ => eats_failStep _) (fun _ => ?_)
      exact eats_consume (by omega) (drains_zrleRect _)

end Decoders

end LvdTerm.Vnc
