import LvdTerm.Lib.Frames
import LvdTerm.Vnc.StepResumable

/-!
# VNC client: what a rectangle's decoder may change

Decoding a rectangle changes pixels of `m_work` inside it, the data and the decoder's own variables,
and may fail. It never touches `m_fb`, the progress of the update or anything of the connection. A
decoder that completes has reported its rectangle to `m_dirty`; DesktopSize is the exception.
-/
namespace LvdTerm.Vnc

open Lib Lib.Action Lib.Frame

variable {E : Env}

/-! ## Rectangles as sets of pixels -/

def Rect.Mem (r : Rect) (x y : Nat) : Prop := r.x ≤ x ∧ x < r.x + r.w ∧ r.y ≤ y ∧ y < r.y + r.h

instance (r : Rect) (x y : Nat) : Decidable (r.Mem x y) :=
  inferInstanceAs (Decidable (_ ∧ _ ∧ _ ∧ _))

theorem Rect.mem_united {a r : Rect} {x y : Nat} (h : a.Mem x y ∨ r.Mem x y) : (a.united r).Mem x y := by
  unfold Rect.united
  by_cases ha : a.isNull
  · rw [if_pos ha]
    have hnull := of_decide_eq_true ha
    simp only [Rect.Mem] at h ⊢
    omega
  · rw [if_neg ha]
    by_cases hr : r.isNull
    · rw [if_pos hr]
      have hnull := of_decide_eq_true hr
      simp only [Rect.Mem] at h ⊢
      omega
    · rw [if_neg hr]
      simp only [Rect.Mem] at h ⊢
      omega

theorem Rect.mem_intersected {a b : Rect} {x y : Nat} : (a.intersected b).Mem x y ↔ a.Mem x y ∧ b.Mem x y := by
  unfold Rect.intersected
  split
  · rename_i hnull
    have hnull := (Bool.or_eq_true _ _).mp hnull
    simp only [Rect.isNull, decide_eq_true_eq] at hnull
    simp only [Rect.Mem]
    omega
  · split
    · simp only [Rect.Mem]
      omega
    · simp only [Rect.Mem]
      omega

/-! ## The frame -/

/-- Still as it was, or failed. -/
inductive Ended (c c' : VncClient E) : Prop where
  | goesOn (stage : c'.stage = c.stage) (socket : c'.socket = c.socket)
      (failedAlready : c'.failedAlready = c.failedAlready) (events : c'.events = c.events)
  | failed (message : String) (first : c.failedAlready = false) (stage : c'.stage = .idle) (socket : c'.socket = false)
      (failedAlready : c'.failedAlready = true) (events : c'.events = c.events ++ [.failed message] ++ [.closed])

/-- What the handshake has settled. -/
def agreed (c : VncClient E) : Nat × Nat × Nat := (c.minor, c.maxMinor, c.securityType)

/-- What decoding the rectangle `r` may have changed. -/
structure Decoded (r : Rect) (c c' : VncClient E) : Prop where
  agreed : agreed c' = agreed c
  rect : c'.rect = c.rect
  encoding : c'.encoding = c.encoding
  inRect : c'.inRect = c.inRect
  lastRectMode : c'.lastRectMode = c.lastRectMode
  rectsLeft : c'.rectsLeft = c.rectsLeft
  resized : c'.resized = c.resized
  updates : c'.updates = c.updates
  fb : c'.fb = c.fb
  width : c'.work.width = c.work.width
  height : c'.work.height = c.work.height
  outside : ∀ x y, ¬ r.Mem x y → c'.work.pixel x y = c.work.pixel x y
  dirty : ∀ x y, c.dirty.Mem x y → c'.dirty.Mem x y
  ended : Ended c c'

theorem Ended.refl (c : VncClient E) : Ended c c := .goesOn rfl rfl rfl rfl

theorem Ended.trans {c₁ c₂ c₃ : VncClient E} (h : Ended c₁ c₂) (h' : Ended c₂ c₃) : Ended c₁ c₃ := by
  cases h with
  | goesOn hs hso hf he =>
    cases h' with
    | goesOn hs' hso' hf' he' => exact .goesOn (hs'.trans hs) (hso'.trans hso) (hf'.trans hf) (he'.trans he)
    | failed m h1 h2 h3 h4 h5 => exact .failed m (hf ▸ h1) h2 h3 h4 (by rw [h5, he])
  | failed m h1 h2 h3 h4 h5 =>
    cases h' with
    | goesOn hs' hso' hf' he' =>
      exact .failed m h1 (hs'.trans h2) (hso'.trans h3) (hf'.trans h4) (he'.trans h5)
    | failed m' h1' _ _ _ _ =>
      rw [h4] at h1'
      cases h1'

theorem Decoded.refl (r : Rect) (c : VncClient E) : Decoded r c c :=
  ⟨rfl, rfl, rfl, rfl, rfl, rfl, rfl, rfl, rfl, rfl, rfl, fun _ _ _ => rfl, fun _ _ h => h, .refl c⟩

/-- The decoder's own variables may differ. -/
theorem Decoded.variables (r : Rect) (c : VncClient E) (buf : List UInt8) (tightStreams : Fin 4 → Option (InflateState E))
    (zrleStream : Option (InflateState E)) (tileX tileY : Nat) (hexBg hexFg : QRgb) :
    Decoded r c
      { c with buf := buf, tightStreams := tightStreams, zrleStream := zrleStream, tileX := tileX, tileY := tileY,
               hexBg := hexBg, hexFg := hexFg } :=
  ⟨rfl, rfl, rfl, rfl, rfl, rfl, rfl, rfl, rfl, rfl, rfl, fun _ _ _ => rfl, fun _ _ h => h, .goesOn rfl rfl rfl rfl⟩

theorem Decoded.trans {r : Rect} {c₁ c₂ c₃ : VncClient E} (h : Decoded r c₁ c₂) (h' : Decoded r c₂ c₃) : Decoded r c₁ c₃ where
  agreed := h'.agreed.trans h.agreed
  rect := h'.rect.trans h.rect
  encoding := h'.encoding.trans h.encoding
  inRect := h'.inRect.trans h.inRect
  lastRectMode := h'.lastRectMode.trans h.lastRectMode
  rectsLeft := h'.rectsLeft.trans h.rectsLeft
  resized := h'.resized.trans h.resized
  updates := h'.updates.trans h.updates
  fb := h'.fb.trans h.fb
  width := h'.width.trans h.width
  height := h'.height.trans h.height
  outside x y hout := (h'.outside x y hout).trans (h.outside x y hout)
  dirty x y hd := h'.dirty x y (h.dirty x y hd)
  ended := h.ended.trans h'.ended

/-- A client whose rectangle is `r` decodes it. -/
def decoding (r : Rect) : Frame (VncClient E) where
  rel c c' := c.rect = r → Decoded r c c'
  refl c _ := .refl r c
  trans h h' hr := (h hr).trans (h' ((h hr).rect.trans hr))

/-! ## Primitive operations -/

section Decoders

variable {α β : Type} {r : Rect}

abbrev Decodes (r : Rect) (m : ClientM E α) : Prop := (decoding r).Keeps m

/-- What is looked up, is looked up in a client that decodes `r`. -/
theorem decodes_look {f : VncClient E → β} {k : β → ClientM E α}
    (h : ∀ c : VncClient E, c.rect = r → Decodes r (k (f c))) : Decodes r (Action.gets f >>= k) := by
  intro c a c' hm hr
  rw [bind_of_ok (gets_apply _ _)] at hm
  exact h c hr c a c' hm hr

theorem decodes_modify {f : VncClient E → VncClient E} (h : ∀ c, Decoded r c (f c)) : Decodes r (Action.modify f) :=
  keeps_modify fun c _ => h c

theorem decodes_need {m : ClientM E Bool} (n : Nat) (hm : Decodes r m) : Decodes r (need n m) :=
  (keeps_gets _).bind fun _ => keeps_ite (fun _ => keeps_pure _) (fun _ => hm)

theorem decodes_consume (n : Nat) : Decodes r (consume n : ClientM E Unit) :=
  keeps_check (p := fun c : VncClient E => n ≤ c.buf.length) fun c _ _ => .variables r c _ _ _ _ _ _ _

theorem decodes_int32 (n : Nat) : Decodes r (int32 n : ClientM E Nat) :=
  keeps_check (p := fun _ : VncClient E => n < 2 ^ 31) fun c _ _ => .refl r c

theorem decodes_fail (message : String) : Decodes r (fail message : ClientM E Unit) := by
  intro c a c' h _
  cases hf : c.failedAlready with
  | true =>
    rw [fail_again message hf] at h
    cases h
    exact .refl r c
  | false =>
    rw [fail_apply message hf] at h
    cases h
    exact ⟨rfl, rfl, rfl, rfl, rfl, rfl, rfl, rfl, rfl, rfl, rfl, fun _ _ _ => rfl, fun _ _ h => h,
      .failed message hf rfl rfl rfl rfl⟩

theorem decodes_failStep (message : String) : Decodes r (failStep message : ClientM E Bool) :=
  (decodes_fail message).bind fun _ => keeps_pure false

theorem decodes_setPixel {x y : Nat} (color : QRgb) (h : r.Mem x y) : Decodes r (setPixel x y color : ClientM E Unit) := by
  refine keeps_check (p := fun c : VncClient E => x < c.work.width ∧ y < c.work.height) fun c _ _ => ?_
  refine ⟨rfl, rfl, rfl, rfl, rfl, rfl, rfl, rfl, rfl, rfl, rfl, fun x' y' hout => ?_, fun _ _ h => h, .goesOn rfl rfl rfl rfl⟩
  refine if_neg ?_
  rintro ⟨rfl, rfl⟩
  exact hout h

theorem decodes_addDirty (d : Rect) : Decodes r (addDirty d : ClientM E Unit) :=
  decodes_modify fun _ =>
    ⟨rfl, rfl, rfl, rfl, rfl, rfl, rfl, rfl, rfl, rfl, rfl, fun _ _ _ => rfl, fun _ _ h => Rect.mem_united (.inl h),
      .goesOn rfl rfl rfl rfl⟩

theorem decodes_byteOf (data : List UInt8) (i : Nat) : Decodes r (byteOf data i : ClientM E UInt8) :=
  keeps_of_readOnly fun h => by
    unfold byteOf at h
    split at h
    · cases h; rfl
    · cases h

theorem decodes_bytes (off n : Nat) : Decodes r (bytes off n : ClientM E (List UInt8)) :=
  keeps_check (p := fun c : VncClient E => off + n ≤ c.buf.length) fun c _ _ => .refl r c

/-- Rows of pixels of `s`, which lies in `r`. -/
theorem decodes_rows {s : Rect} {pixel : Nat → Nat → ClientM E Unit}
    (h : ∀ row < s.h, ∀ col < s.w, Decodes r (pixel row col)) :
    Decodes r (Action.forRange s.h fun row => Action.forRange s.w fun col => pixel row col) :=
  keeps_forRange fun row hrow => keeps_forRange fun col hcol => h row hrow col hcol

theorem decodes_fillRect {x y w h : Nat} (color : QRgb) (hin : ∀ row < h, ∀ col < w, r.Mem (x + col) (y + row)) :
    Decodes r (fillRect x y w h color : ClientM E Unit) :=
  keeps_forRange fun row hrow => keeps_forRange fun col hcol => decodes_setPixel color (hin row hrow col hcol)

theorem Rect.mem_of_lt {x y col row : Nat} (hcol : col < r.w) (hrow : row < r.h) (hx : x = r.x + col) (hy : y = r.y + row) :
    r.Mem x y := by
  unfold Rect.Mem
  omega

/-! ## Raw and CopyRect -/

theorem decodes_rawRows {s : Rect} (pos : Nat) (hin : ∀ row < s.h, ∀ col < s.w, r.Mem (s.x + col) (s.y + row)) :
    Decodes r (rawRows s.x s.y s.w s.h pos : ClientM E Unit) :=
  decodes_rows fun row hrow col hcol =>
    (keeps_of_readOnly (readOnly_pixelAt _)).bind fun color => decodes_setPixel color (hin row hrow col hcol)

theorem decodeRaw_decodes : Decodes r (decodeRaw : ClientM E Bool) := by
  refine decodes_look fun c hr => ?_
  subst hr
  refine decodes_need _ (Keeps.bind ?_ fun _ => ?_)
  · refine keeps_forRange fun row hrow => (decodes_int32 _).bind fun base => keeps_forRange fun col hcol => ?_
    refine (keeps_of_readOnly (readOnly_pixelAt _)).bind fun color => decodes_setPixel color ?_
    exact Rect.mem_of_lt hcol hrow rfl rfl
  · exact (decodes_addDirty _).bind fun _ => (decodes_consume _).bind fun _ => keeps_pure true

theorem decodes_pasteRows {copy : Image} (hw : copy.width ≤ r.w) (hh : copy.height ≤ r.h) :
    Decodes r (pasteRows r.x r.y copy : ClientM E Unit) :=
  keeps_forRange fun _ hrow => keeps_forRange fun _ hcol =>
    decodes_setPixel _ (Rect.mem_of_lt (Nat.lt_of_lt_of_le hcol hw) (Nat.lt_of_lt_of_le hrow hh) rfl rfl)

/-- What is copied is as large as the rectangle. -/
theorem copy_size {i : Image} {source : Rect} (h : ¬ (!i.rect.contains source) = true) :
    (i.copy source).width ≤ source.w ∧ (i.copy source).height ≤ source.h := by
  have hnull : source.isNull = false := by
    simp only [Rect.contains, Bool.not_eq_true'] at h
    cases hn : source.isNull with
    | false => rfl
    | true => simp [hn] at h
  unfold Image.copy
  rw [hnull, if_neg (by decide)]
  by_cases hz : source.w = 0 ∨ source.h = 0
  · rw [if_pos hz]
    exact ⟨Nat.zero_le _, Nat.zero_le _⟩
  · rw [if_neg hz]
    exact ⟨Nat.le_refl _, Nat.le_refl _⟩

theorem decodeCopyRect_decodes : Decodes r (decodeCopyRect : ClientM E Bool) := by
  refine decodes_need _ ((keeps_of_readOnly (readOnly_u16 _)).bind fun x => ?_)
  refine (keeps_of_readOnly (readOnly_u16 _)).bind fun y => decodes_look fun c hr => decodes_look fun c' _ => ?_
  subst hr
  refine (decodes_consume _).bind fun _ => keeps_ite (fun _ => decodes_failStep _) (fun hin => ?_)
  have hsize := copy_size hin
  refine (decodes_pasteRows (r := c.rect) hsize.1 hsize.2).bind fun _ => ?_
  exact (decodes_addDirty _).bind fun _ => keeps_pure true

/-! ## Hextile -/

/-- A tile lies in its rectangle. -/
theorem hextileTile_mem (c : VncClient E) : ∀ row < (hextileTile c).h, ∀ col < (hextileTile c).w,
    c.rect.Mem ((hextileTile c).x + col) ((hextileTile c).y + row) := by
  intro row hrow col hcol
  simp only [hextileTile] at hrow hcol ⊢
  unfold Rect.Mem
  omega

variable {t : Rect} (hin : ∀ row < t.h, ∀ col < t.w, r.Mem (t.x + col) (t.y + row))

include hin

theorem decodes_hextileSubrect (fg : QRgb) (coloured : Bool) (pos : Option Nat) :
    Decodes r (hextileSubrect t fg coloured pos : ClientM E (Option Nat)) := by
  cases pos with
  | none => exact keeps_pure none
  | some pos =>
    have hrest (colour : QRgb) (pos : Nat) : Decodes r (do
        let xy ← u8 pos
        let wh ← u8 (pos + 1)
        if xy.toNat / 16 + (wh.toNat / 16 + 1) > t.w ∨ xy.toNat % 16 + (wh.toNat % 16 + 1) > t.h then
          fail "The server sent an invalid Hextile subrectangle"
          pure none
        else
          fillRect (t.x + xy.toNat / 16) (t.y + xy.toNat % 16) (wh.toNat / 16 + 1) (wh.toNat % 16 + 1) colour
          pure (some (pos + 2)) : ClientM E (Option Nat)) := by
      refine (keeps_of_readOnly (readOnly_u8 _)).bind fun xy => (keeps_of_readOnly (readOnly_u8 _)).bind fun wh => ?_
      refine keeps_ite (fun _ => (decodes_fail _).bind fun _ => keeps_pure none) (fun hfits => ?_)
      refine (decodes_fillRect _ fun row hrow col hcol => ?_).bind fun _ => keeps_pure _
      have hpixel := hin (xy.toNat % 16 + row) (by omega) (xy.toNat / 16 + col) (by omega)
      rwa [← Nat.add_assoc, ← Nat.add_assoc] at hpixel
    unfold hextileSubrect
    cases coloured with
    | true => exact (keeps_of_readOnly (readOnly_pixelAt _)).bind fun colour => hrest colour (pos + 4)
    | false => exact (keeps_pure fg).bind fun colour => hrest colour pos

theorem decodes_hextileCommit (bg fg : QRgb) (coloured : Bool) (subrects pos : Nat) :
    Decodes r (hextileCommit t bg fg coloured subrects pos : ClientM E Bool) := by
  refine Keeps.bind (decodes_modify fun c => .variables r c _ _ _ _ _ _ _) fun _ => ?_
  refine (decodes_fillRect bg hin).bind fun _ => ?_
  refine Keeps.bind (keeps_foldRange (fun _ _ pos => decodes_hextileSubrect hin fg coloured pos) _) fun pos => ?_
  cases pos with
  | none => exact keeps_pure false
  | some pos => exact (decodes_consume _).bind fun _ => keeps_pure true

omit hin

theorem stepHextileTile_decodes : Decodes r (stepHextileTile : ClientM E Bool) := by
  refine decodes_need _ (decodes_look fun c hr => ?_)
  subst hr
  have hin := hextileTile_mem c
  refine (keeps_of_readOnly (readOnly_u8 _)).bind fun sub => keeps_ite (fun _ => ?_) (fun _ => ?_)
  · exact decodes_need _ ((decodes_rawRows 1 hin).bind fun _ => (decodes_consume _).bind fun _ => keeps_pure true)
  · refine (keeps_gets _).bind fun bg => (keeps_gets _).bind fun fg => ?_
    refine (keeps_of_readOnly (peek_hextileColour _ _ _).readOnly).bind fun background => ?_
    rcases background with _ | ⟨bg, pos⟩
    · exact keeps_pure false
    refine (keeps_of_readOnly (peek_hextileColour _ _ _).readOnly).bind fun foreground => ?_
    rcases foreground with _ | ⟨fg, pos⟩
    · exact keeps_pure false
    refine (keeps_of_readOnly (peek_hextileCount _ _).readOnly).bind fun count => ?_
    rcases count with _ | ⟨subrects, pos⟩
    · exact keeps_pure false
    exact decodes_need _ (decodes_hextileCommit hin _ _ _ _ _)

theorem nextHextile_decodes : Decodes r (nextHextile : ClientM E Unit) :=
  decodes_modify fun c => by
    split
    · exact .variables r c _ _ _ _ _ _ _
    · exact .variables r c _ _ _ _ _ _ _

theorem decodeHextile_decodes : Decodes r (decodeHextile : ClientM E Bool) := by
  intro c done c' h
  exact keeps_loopWhile stepHextileTile_decodes nextHextile_decodes _ c done c' h

/-! ## Tight -/

theorem decodes_setStream (i : Fin 4) (s : InflateState E) : Decodes r (setStream i s) :=
  decodes_modify fun c => .variables r c _ _ _ _ _ _ _

theorem decodes_resetIfAsked (control : UInt8) (i : Fin 4) : Decodes r (resetIfAsked control i : ClientM E Bool) := by
  refine keeps_ite (fun _ => (keeps_gets _).bind fun streams => ?_) (fun _ => keeps_pure true)
  cases resetStream streams i with
  | none => exact (decodes_setStream _ _).bind fun _ => decodes_failStep _
  | some s => exact (decodes_setStream _ _).bind fun _ => keeps_pure true

theorem decodes_resetStreams (control : UInt8) : Decodes r (resetStreams control : ClientM E Bool) := by
  refine (decodes_resetIfAsked _ _).bind fun _ => keeps_ite (fun _ => keeps_pure false) (fun _ => ?_)
  refine (decodes_resetIfAsked _ _).bind fun _ => keeps_ite (fun _ => keeps_pure false) (fun _ => ?_)
  refine (decodes_resetIfAsked _ _).bind fun _ => keeps_ite (fun _ => keeps_pure false) (fun _ => ?_)
  exact decodes_resetIfAsked _ _

theorem decodes_tightStream (i : Fin 4) : Decodes r (tightStream i : ClientM E (Option (InflateState E))) := by
  refine (keeps_gets _).bind fun streams => ?_
  cases streams i with
  | some s => exact keeps_pure _
  | none =>
    cases resetStream streams i with
    | none => exact (decodes_setStream _ _).bind fun _ => keeps_pure _
    | some s => exact (decodes_setStream _ _).bind fun _ => keeps_pure _

theorem decodes_tightFill : Decodes r (tightFill : ClientM E Bool) := by
  refine decodes_need _ (decodes_look fun c hr => ?_)
  subst hr
  refine (keeps_of_readOnly (readOnly_u8 _)).bind fun _ => (keeps_of_readOnly (readOnly_u8 _)).bind fun _ => ?_
  refine (keeps_of_readOnly (readOnly_u8 _)).bind fun _ => ?_
  refine (decodes_fillRect _ fun row hrow col hcol => Rect.mem_of_lt hcol hrow rfl rfl).bind fun _ => ?_
  exact (decodes_consume _).bind fun _ => keeps_pure true

theorem decodes_rgbPixel {x y : Nat} (data : List UInt8) (i j k : Nat) (h : r.Mem x y) :
    Decodes r (do
      let red ← byteOf data i
      let green ← byteOf data j
      let blue ← byteOf data k
      setPixel x y (qRgb red green blue) : ClientM E Unit) :=
  (decodes_byteOf _ _).bind fun _ => (decodes_byteOf _ _).bind fun _ => (decodes_byteOf _ _).bind fun _ =>
    decodes_setPixel _ h

theorem decodes_tightJpeg : Decodes r (tightJpeg : ClientM E Bool) := by
  refine (keeps_of_readOnly (peek_compactLength _).readOnly).bind fun header => ?_
  rcases header with _ | ⟨n, length⟩
  · exact keeps_pure false
  refine decodes_need _ (decodes_look fun c hr => ?_)
  subst hr
  refine (decodes_bytes _ _).bind fun data => ?_
  cases E.decodeJpegToRgb data with
  | none => exact decodes_failStep _
  | some j =>
    refine keeps_ite (fun _ => decodes_failStep _) (fun _ => Keeps.bind ?_ fun _ => ?_)
    · exact decodes_rows fun row hrow col hcol => decodes_rgbPixel _ _ _ _ (Rect.mem_of_lt hcol hrow rfl rfl)
    · exact (decodes_consume _).bind fun _ => keeps_pure true

theorem decodes_paletteAt (palette : List QRgb) (i : Nat) : Decodes r (paletteAt palette i : ClientM E QRgb) :=
  keeps_of_readOnly fun h => by
    unfold paletteAt at h
    split at h
    · cases h; rfl
    · cases h

theorem decodes_tightPixels (f : TightFilter) (data : List UInt8) : Decodes r (tightPixels r f data : ClientM E Unit) := by
  refine keeps_ite (fun _ => ?palette) (fun _ => keeps_ite (fun _ => ?gradient) (fun _ => ?copy))
  case palette =>
    refine keeps_forRange fun row hrow => (decodes_int32 _).bind fun base => keeps_forRange fun col hcol => ?_
    have hcolor (index : Nat) : Decodes r (do
        let color ← paletteAt f.palette index
        setPixel (r.x + col) (r.y + row) color : ClientM E Unit) :=
      (decodes_paletteAt _ _).bind fun color => decodes_setPixel color (Rect.mem_of_lt hcol hrow rfl rfl)
    refine keeps_ite (fun _ => ?_) (fun _ => ?_)
    · exact (decodes_byteOf _ _).bind fun b => (keeps_pure _).bind fun index => hcolor index
    · exact (decodes_byteOf _ _).bind fun b => (keeps_pure _).bind fun index => hcolor index
  case gradient =>
    have hbyte (row : Nat) (prev : List UInt8) (x : Nat) (cur : List UInt8) (k : Nat) :
        Decodes r (gradientPixel row prev data x cur k : ClientM E UInt8) := by
      refine (decodes_byteOf _ _).bind fun _ => (decodes_byteOf _ _).bind fun _ => ?_
      refine keeps_ite (fun _ => keeps_pure _) (fun _ => ?_)
      exact (decodes_byteOf _ _).bind fun _ => (decodes_byteOf _ _).bind fun _ => keeps_pure _
    refine Keeps.bind (keeps_foldRange (fun y hy prev => ?_) _) fun _ => keeps_pure ()
    refine (decodes_int32 _).bind fun base => keeps_foldRange (fun x hx cur => ?_) _
    refine (hbyte _ _ _ _ _).bind fun _ => (hbyte _ _ _ _ _).bind fun _ => (hbyte _ _ _ _ _).bind fun _ => ?_
    exact (decodes_setPixel _ (Rect.mem_of_lt hx hy rfl rfl)).bind fun _ => keeps_pure _
  case copy =>
    refine keeps_forRange fun row hrow => (decodes_int32 _).bind fun base => keeps_forRange fun col hcol => ?_
    exact decodes_rgbPixel _ _ _ _ (Rect.mem_of_lt hcol hrow rfl rfl)

theorem decodes_tightCompressed (f : TightFilter) (stream : Fin 4) (dataSize : Nat) :
    Decodes r (tightCompressed r f stream dataSize : ClientM E Bool) := by
  refine (keeps_of_readOnly (peek_compactLength _).readOnly).bind fun header => ?_
  rcases header with _ | ⟨n, length⟩
  · exact keeps_pure false
  refine decodes_need _ ((decodes_tightStream _).bind fun state => ?_)
  cases state with
  | none => exact decodes_failStep _
  | some state =>
    refine (decodes_bytes _ _).bind fun input => ?_
    cases state.zs with
    | none => exact decodes_failStep _
    | some zs =>
      refine (decodes_setStream _ _).bind fun _ => keeps_ite (fun _ => decodes_failStep _) (fun _ => ?_)
      exact (decodes_tightPixels _ _).bind fun _ => (decodes_consume _).bind fun _ => keeps_pure true

theorem decodes_tightFiltered (header : FilterHeader) (stream : Fin 4) :
    Decodes r (tightFiltered header stream : ClientM E Bool) := by
  cases header with
  | unsupported => exact decodes_failStep _
  | ok f =>
    refine decodes_look fun c hr => (decodes_int32 _).bind fun _ => (decodes_int32 _).bind fun dataSize => ?_
    subst hr
    refine keeps_ite (fun _ => ?_) (fun _ => decodes_tightCompressed _ _ _)
    refine decodes_need _ ((decodes_bytes _ _).bind fun data => ?_)
    exact (decodes_tightPixels _ _).bind fun _ => (decodes_consume _).bind fun _ => keeps_pure true

theorem stepTight_decodes : Decodes r (stepTight : ClientM E Bool) := by
  refine decodes_need _ ((keeps_of_readOnly (readOnly_u8 _)).bind fun control => ?_)
  refine (decodes_resetStreams _).bind fun ok => keeps_ite (fun _ => ?_) (fun _ => keeps_pure false)
  refine keeps_ite (fun _ => decodes_tightFill) (fun _ => keeps_ite (fun _ => decodes_tightJpeg) (fun _ => ?_))
  refine keeps_ite (fun _ => decodes_failStep _) (fun _ => ?_)
  refine (keeps_of_readOnly (peek_tightFilter _).readOnly).bind fun header => ?_
  cases header with
  | none => exact keeps_pure false
  | some header => exact decodes_tightFiltered _ _

/-! ## ZRLE -/

theorem decodes_zrleState : Decodes r (zrleState : ClientM E (Option (InflateState E))) := by
  refine (keeps_gets _).bind fun stream => ?_
  cases stream with
  | some s => exact keeps_pure _
  | none =>
    cases (InflateState.mk none : InflateState E).reset with
    | none => exact Keeps.bind (decodes_modify fun c => .variables r c _ _ _ _ _ _ _) fun _ => keeps_pure _
    | some s => exact Keeps.bind (decodes_modify fun c => .variables r c _ _ _ _ _ _ _) fun _ => keeps_pure _

theorem decodes_drawWrites {ws : List Write} (h : ∀ w ∈ ws, r.Mem w.x w.y) : Decodes r (drawWrites ws : ClientM E Unit) := by
  induction ws with
  | nil => exact keeps_pure ()
  | cons w ws ih =>
    refine Keeps.bind ?_ fun _ => ih fun w hw => h w (List.mem_cons_of_mem _ hw)
    unfold drawWrite
    cases w.color with
    | none => exact keeps_throw _
    | some color => exact decodes_setPixel _ (h w List.mem_cons_self)

theorem zrleDecode_mem {payload : List UInt8} : ∀ w ∈ (zrleDecode (zrleTiles r) payload).writes, r.Mem w.x w.y := by
  intro w hw
  obtain ⟨t, ht, hx, hx', hy, hy'⟩ := zrleDecode_inside (zrleTiles_clipped r) w hw
  have hin := zrleTiles_inside r t ht
  have hfrom := zrleTiles_from r t ht
  unfold Rect.Mem
  omega

theorem zrleRect_decodes (payload : List UInt8) : Decodes r (zrleRect payload : ClientM E Bool) := by
  refine decodes_look fun c hr => Keeps.bind (decodes_drawWrites fun w hw => ?_) fun _ => ?_
  · rw [← hr]
    exact zrleDecode_mem w hw
  · cases (zrleDecode (zrleTiles c.rect) payload).finish with
    | ok rest => exact (decodes_addDirty _).bind fun _ => keeps_pure true
    | corrupt => exact decodes_failStep _
    | fault f => exact keeps_throw _

theorem stepZrle_decodes : Decodes r (stepZrle : ClientM E Bool) := by
  refine decodes_need _ ((keeps_of_readOnly (readOnly_u32 _)).bind fun length => ?_)
  refine keeps_ite (fun _ => decodes_failStep _) (fun _ => decodes_need _ (decodes_zrleState.bind fun state => ?_))
  cases state with
  | none => exact decodes_failStep _
  | some state =>
    refine (decodes_bytes _ _).bind fun input => ?_
    cases state.zs with
    | none => exact decodes_failStep _
    | some zs =>
      refine Keeps.bind (decodes_modify fun c => .variables r c _ _ _ _ _ _ _) fun _ => ?_
      refine keeps_ite (fun _ => decodes_failStep _) (fun _ => ?_)
      exact (decodes_consume _).bind fun _ => zrleRect_decodes _

/-! ## All of them -/

theorem thenDirty_decodes {decode : ClientM E Bool} (h : Decodes r decode) : Decodes r (thenDirty decode) := by
  refine h.bind fun done => keeps_ite (fun _ => ?_) (fun _ => keeps_pure false)
  exact (keeps_gets _).bind fun rect => (decodes_addDirty _).bind fun _ => keeps_pure true

/-- Every decoder but DesktopSize. -/
theorem decodeRect_decodes {encoding : Int} (h : encoding ≠ encDesktopSize) : Decodes r (decodeRect encoding : ClientM E Bool) := by
  refine keeps_ite (fun _ => decodeRaw_decodes) (fun _ => keeps_ite (fun _ => decodeCopyRect_decodes) (fun _ => ?_))
  refine keeps_ite (fun _ => thenDirty_decodes decodeHextile_decodes) (fun _ => ?_)
  refine keeps_ite (fun _ => thenDirty_decodes stepTight_decodes) (fun _ => ?_)
  refine keeps_ite (fun _ => stepZrle_decodes) (fun _ => keeps_ite (fun _ => keeps_pure true) (fun _ => ?_))
  rw [if_neg h]
  exact decodes_failStep _

end Decoders

end LvdTerm.Vnc
