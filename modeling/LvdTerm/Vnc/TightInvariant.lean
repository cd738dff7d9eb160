import LvdTerm.Vnc.RectInvariant

/-!
# VNC client: sizes in Tight rectangles

The only sizes of the decoder that an `int` need not hold are those of a basic Tight
rectangle, `rowBytes` and `rowBytes * h`: a desktop announced by `ServerInit` may be
65535 pixels wide and high. `tightRowBytes` reads the row size off the bytes alone.
-/
namespace LvdTerm.Vnc

open Lib Action

variable {E : Env} {F : Fault → Prop} {c c' : VncClient E}

/-! ## Streams -/

/-- The control byte asks for stream `i` to be reset. -/
def resetAsked (control : UInt8) (i : Fin 4) : Bool := control.toNat / 2 ^ i.val % 2 = 1

/-- zlib grants every reset the control byte asks for. -/
def ResetsGranted (control : UInt8) (c : VncClient E) : Prop :=
  ∀ i, resetAsked control i = true → (resetStream c.tightStreams i).isSome = true

/-- Only the Tight streams from `n` on are as they were. -/
def StreamsFrom (n : Nat) (c c' : VncClient E) : Prop :=
  ∃ streams, c' = { c with tightStreams := streams } ∧ ∀ i : Fin 4, n ≤ i.val → streams i = c.tightStreams i

theorem StreamsFrom.refl (c : VncClient E) : StreamsFrom 0 c c := ⟨c.tightStreams, rfl, fun _ _ => rfl⟩

theorem StreamsFrom.buf {n : Nat} (h : StreamsFrom n c c') : c'.buf = c.buf := by
  obtain ⟨_, rfl, _⟩ := h
  rfl

theorem StreamsFrom.rect {n : Nat} (h : StreamsFrom n c c') : c'.rect = c.rect := by
  obtain ⟨_, rfl, _⟩ := h
  rfl

theorem StreamsFrom.tiling {n : Nat} (h : StreamsFrom n c c') (ht : Tiling c) : Tiling c' := by
  obtain ⟨_, rfl, _⟩ := h
  exact ⟨ht.live.of_eq rfl rfl rfl rfl rfl, ⟨ht.ok.width_lt, ht.ok.height_lt, ht.ok.inside, ht.ok.tile⟩,
    ht.inside⟩

/-- After the resets of the streams below `n`: they were granted, or the client failed. -/
def ResetsDone (control : UInt8) (c : VncClient E) (n : Nat) (ok : Bool) (c' : VncClient E) : Prop :=
  if ok then StreamsFrom n c c' ∧
    ∀ i : Fin 4, i.val < n → resetAsked control i = true → (resetStream c.tightStreams i).isSome = true
  else Inv c' ∧ c'.buf = c.buf

theorem resetIfAsked_spec {control : UInt8} {n : Nat} (hn : n < 4) (hc : c.failedAlready = false)
    (h : ResetsDone control c n true c') :
    wp F (resetIfAsked control ⟨n, hn⟩) (ResetsDone control c (n + 1)) c' := by
  obtain ⟨⟨streams, rfl, hsame⟩, hgranted⟩ := h
  have hold := hsame ⟨n, hn⟩ (Nat.le_refl n)
  have hreset : resetStream streams ⟨n, hn⟩ = resetStream c.tightStreams ⟨n, hn⟩ := by
    unfold resetStream
    rw [hold]
  have hupto : ∀ i : Fin 4, i.val < n + 1 → i.val < n ∨ i = ⟨n, hn⟩ := by
    intro i hi
    rcases Nat.lt_succ_iff_lt_or_eq.mp hi with h | h
    · exact .inl h
    · exact .inr (Fin.ext h)
  unfold resetIfAsked setStream
  refine wp_ite (fun hasked => ?_) (fun hno => ?_)
  · simp only [wp_bind, wp_gets]
    rw [hreset]
    cases hr : resetStream c.tightStreams ⟨n, hn⟩ with
    | none =>
      simp only [wp_bind, wp_modify]
      exact wp_failStep hc ⟨inv_failed _ _, rfl⟩
    | some s =>
      simp only [wp_bind, wp_modify, wp_pure]
      refine ⟨⟨_, rfl, fun i hi => ?_⟩, fun i hi ha => ?_⟩
      · have hne : i ≠ ⟨n, hn⟩ := fun he => by
          rw [he] at hi
          exact absurd hi (Nat.not_succ_le_self n)
        rw [if_neg hne]
        exact hsame i (Nat.le_of_succ_le hi)
      · rcases hupto i hi with h | rfl
        · exact hgranted i h ha
        · rw [hr]
          rfl
  · refine ⟨⟨streams, rfl, fun i hi => hsame i (Nat.le_of_succ_le hi)⟩, fun i hi ha => ?_⟩
    rcases hupto i hi with h | rfl
    · exact hgranted i h ha
    · exact absurd (of_decide_eq_true ha) hno

theorem resetStreams_spec (control : UInt8) (hc : c.failedAlready = false) :
    wp F (resetStreams control) (ResetsDone control c 4) c := by
  have hstart : ResetsDone control c 0 true c := ⟨.refl c, fun i hi => absurd hi (Nat.not_lt_zero _)⟩
  unfold resetStreams
  simp only [wp_bind]
  refine wp_mono (resetIfAsked_spec (n := 0) (by decide) hc hstart) fun ok c₁ h₁ => ?_
  cases ok with
  | false => exact h₁
  | true =>
    simp only [Bool.not_true, Bool.false_eq_true, if_false, wp_bind]
    refine wp_mono (resetIfAsked_spec (n := 1) (by decide) hc h₁) fun ok c₂ h₂ => ?_
    cases ok with
    | false => exact h₂
    | true =>
      simp only [Bool.not_true, Bool.false_eq_true, if_false, wp_bind]
      refine wp_mono (resetIfAsked_spec (n := 2) (by decide) hc h₂) fun ok c₃ h₃ => ?_
      cases ok with
      | false => exact h₃
      | true => exact resetIfAsked_spec (n := 3) (by decide) hc h₃

/-! ## Fill and JPEG -/

theorem wp_compactLength {off : Nat} {Q : Option (Nat × Nat) → VncClient E → Prop} (hnone : Q none c)
    (hsome : ∀ n length, Q (some (n, length)) c) : wp F (compactLength off) Q c := by
  unfold compactLength
  refine wp_peek hnone fun h₁ => ?_
  simp only [wp_bind]
  refine wp_u8 (by omega) fun b₀ _ => wp_ite (fun _ => hsome _ _) (fun _ => wp_peek hnone fun h₂ => ?_)
  simp only [wp_bind]
  refine wp_u8 (by omega) fun b₁ _ => wp_ite (fun _ => hsome _ _) (fun _ => wp_peek hnone fun h₃ => ?_)
  simp only [wp_bind, wp_pure]
  exact wp_u8 (by omega) fun b₂ _ => hsome _ _

/-- The end of a Tight rectangle whose data lies in the buffer. -/
theorem wp_finish {m : ClientM E Unit} {n : Nat} {c₀ : VncClient E} (hl : Live c)
    (hle : c.buf.length ≤ c₀.buf.length) (hn : n ≤ c.buf.length)
    (hm : wp F m (fun _ => Painted c) c) :
    wp F (do
      m
      consume n
      pure true) (After c₀) c := by
  simp only [wp_bind, wp_pure]
  refine wp_painted hm fun c₁ hp => wp_consume (by rw [hp.buf]; exact hn) ?_
  exact (After.painted hl hp).of_le hle

theorem tightFill_after (h : Tiling c) : wp F tightFill (After c) c := by
  unfold tightFill
  refine wp_need (.wait (Nat.le_refl _) h.inv) fun hlen => ?_
  simp only [wp_bind, wp_gets]
  refine wp_u8 (by omega) fun r _ => wp_u8 (by omega) fun g _ => wp_u8 (by omega) fun b _ => ?_
  have hfill : wp F (fillRect c.rect.x c.rect.y c.rect.w c.rect.h (qRgb r g b)) (fun _ => Painted c) c :=
    wp_fillRect ⟨h.inside.1, h.inside.2⟩
  have hfinish := wp_finish h.live (Nat.le_refl _) hlen hfill
  simpa only [wp_bind] using hfinish

theorem wp_jpegRows {data : List UInt8} (h : Inside c) (hdata : data.length = c.rect.w * c.rect.h * 3) :
    wp F (jpegRows c.rect data) (fun _ => Painted c) c := by
  unfold jpegRows
  refine wp_rows fun y x c₁ hy hx hp => ?_
  have hpix := pixel_lt hy hx
  have h1 := h.1
  have h2 := h.2
  simp only [wp_bind]
  exact wp_byteOf (by omega) fun _ => wp_byteOf (by omega) fun _ => wp_byteOf (by omega) fun _ =>
    wp_setPixel hp (by omega) (by omega)

theorem tightJpeg_after (h : Tiling c) : wp F tightJpeg (After c) c := by
  unfold tightJpeg
  simp only [wp_bind]
  refine wp_compactLength (.wait (Nat.le_refl _) h.inv) fun n length => ?_
  refine wp_need (.wait (Nat.le_refl _) h.inv) fun hlen => ?_
  simp only [wp_bind, wp_gets]
  refine wp_bytes (by omega) fun data _ => ?_
  cases hj : E.decodeJpegToRgb data with
  | none => exact wp_failStep h.live.failed (.failed _ (Nat.le_refl _))
  | some j =>
    refine wp_ite (fun _ => wp_failStep h.live.failed (.failed _ (Nat.le_refl _))) (fun hsize => ?_)
    have hw : j.width = c.rect.w := Decidable.of_not_not fun hne => hsize (.inl hne)
    have hh : j.height = c.rect.h := Decidable.of_not_not fun hne => hsize (.inr hne)
    have hdata : j.rgb.length = c.rect.w * c.rect.h * 3 := by rw [E.jpeg_size data j hj, hw, hh]
    exact wp_finish h.live (Nat.le_refl _) hlen (wp_jpegRows h.inside hdata)

/-! ## Filters -/

/-- The bytes of a row of a basic rectangle `w` pixels wide, read off the data from the
control byte on; `none` if it is another kind or its header has not arrived. -/
def tightRowBytes (w : Nat) (data : List UInt8) : Option Nat := do
  let control ← data[0]?
  if control.toNat / 16 > 7 then none
  else if control.toNat / 64 % 2 = 0 then some (w * 3)
  else
    let filter ← data[1]?
    if filter = 1 then
      let size ← data[2]?
      if data.length < 3 + (size.toNat + 1) * 3 then none
      else some (if size.toNat + 1 = 2 then (w + 7) / 8 else w)
    else if filter > 2 then none
    else some (w * 3)

/-- A filter header that has been read in full. -/
structure FilterOk (data : List UInt8) (f : TightFilter) : Prop where
  palette : f.filter = 1 → 0 < f.palette.length
  rowBytes : ∀ w, tightRowBytes w data = some (f.rowBytes w)

theorem wp_readTightPalette {pos n : Nat} {Q : List QRgb → VncClient E → Prop}
    (hlen : pos + n * 3 ≤ c.buf.length) (h : ∀ palette, palette.length = n → Q palette c) :
    wp F (readTightPalette pos n) Q c := by
  have hloop : wp F (readTightPalette pos n) (fun palette c' => palette.length = n ∧ c' = c) c := by
    unfold readTightPalette
    refine wp_foldRange (I := fun i (palette : List QRgb) c' => palette.length = i ∧ c' = c) (fun i palette c' hi hp => ?_)
      ⟨rfl, rfl⟩
    obtain ⟨hsize, rfl⟩ := hp
    simp only [wp_bind, wp_pure]
    refine wp_u8 (by omega) fun r _ => wp_u8 (by omega) fun g _ => wp_u8 (by omega) fun b _ => ?_
    exact ⟨by rw [List.length_append, hsize]; rfl, rfl⟩
  refine wp_mono hloop ?_
  rintro palette c' ⟨hsize, rfl⟩
  exact h palette hsize

theorem wp_tightFilter {control : UInt8} {Q : Option FilterHeader → VncClient E → Prop}
    (hcontrol : c.buf[0]? = some control) (hkind : ¬ control.toNat / 16 > 7)
    (hincomplete : Q none c) (hunsupported : Q (some .unsupported) c)
    (hok : ∀ f, FilterOk c.buf f → Q (some (.ok f)) c) : wp F (tightFilter control) Q c := by
  unfold tightFilter
  refine wp_ite (fun hno => ?_) (fun hfilter => wp_peek hincomplete fun h₁ => ?_)
  · refine hok _ ⟨fun h => (by cases h), fun w => ?_⟩
    simp only [tightRowBytes, hcontrol, Option.bind_eq_bind, Option.bind_some, if_neg hkind, if_pos hno]
    rfl
  · simp only [wp_bind]
    refine wp_u8 (by omega) fun filter hget => wp_ite (fun hone => ?_) (fun hone => ?_)
    · refine wp_peek hincomplete fun h₂ => ?_
      simp only [wp_bind]
      refine wp_u8 (by omega) fun size hsize => wp_peek hincomplete fun h₃ => ?_
      have h₃' : ¬ c.buf.length < 3 + (size.toNat + 1) * 3 := by omega
      simp only [wp_bind, wp_pure]
      refine wp_readTightPalette (by omega) fun palette hp => hok _ ⟨fun _ => by rw [hp]; omega, fun w => ?_⟩
      simp only [tightRowBytes, hcontrol, hget, hsize, Option.bind_eq_bind, Option.bind_some, if_neg hkind,
        if_neg hfilter, if_pos hone, if_neg h₃', TightFilter.rowBytes, TightFilter.onebit, hp, true_and, if_true,
        decide_eq_true_eq]
    · refine wp_ite (fun _ => hunsupported) (fun htwo => hok _ ⟨fun h => ?_, fun w => ?_⟩)
      · exact absurd (UInt8.toNat_inj.mp h) hone
      · have hne : ¬ filter.toNat = 1 := fun h => hone (UInt8.toNat_inj.mp h)
        simp only [tightRowBytes, hcontrol, hget, Option.bind_eq_bind, Option.bind_some, if_neg hkind,
          if_neg hfilter, if_neg hone, if_neg htwo, TightFilter.rowBytes, if_neg hne]

/-! ## Rows -/

theorem row_end {y h rowBytes size : Nat} (hy : y < h) (hsize : rowBytes * h ≤ size) :
    y * rowBytes + rowBytes ≤ size := by
  calc y * rowBytes + rowBytes = (y + 1) * rowBytes := (Nat.succ_mul y rowBytes).symm
    _ ≤ h * rowBytes := Nat.mul_le_mul_right rowBytes hy
    _ = rowBytes * h := Nat.mul_comm h rowBytes
    _ ≤ size := hsize

/-- The rows of a decoded rectangle, each found through an `int` offset. -/
theorem wp_dataRows {rowBytes size : Nat} {pixel : Nat → Nat → Nat → ClientM E Unit}
    (hsize : rowBytes * c.rect.h ≤ size) (hfits : size < 2 ^ 31)
    (hpixel : ∀ row y x c', row + rowBytes ≤ size → y < c.rect.h → x < c.rect.w → Painted c c' →
      wp F (pixel row y x) (fun _ => Painted c) c') :
    wp F (forRange c.rect.h fun y => do
      let row ← int32 (y * rowBytes)
      forRange c.rect.w fun x => pixel row y x) (fun _ => Painted c) c := by
  refine wp_forRange (I := fun _ => Painted c) (fun y c₁ hy hp => ?_) (Painted.refl c)
  have hend := row_end hy hsize
  simp only [wp_bind]
  refine wp_int32 (fun hover => absurd hover (by omega)) fun _ => ?_
  exact wp_forRange (I := fun _ => Painted c) (fun x c₂ hx hp => hpixel _ y x c₂ hend hy hx hp) hp

theorem wp_rgbRows {data : List UInt8} (h : Inside c) (hdata : data.length = c.rect.w * 3 * c.rect.h)
    (hfits : data.length < 2 ^ 31) :
    wp F (rgbRows c.rect (c.rect.w * 3) data) (fun _ => Painted c) c := by
  unfold rgbRows
  refine wp_dataRows (Nat.le_of_eq hdata.symm) hfits fun row y x c' hrow hy hx hp => ?_
  have h1 := h.1
  have h2 := h.2
  simp only [wp_bind]
  exact wp_byteOf (by omega) fun _ => wp_byteOf (by omega) fun _ => wp_byteOf (by omega) fun _ =>
    wp_setPixel hp (by omega) (by omega)

theorem wp_paletteAt {palette : List QRgb} {i : Nat} {Q : QRgb → VncClient E → Prop}
    (hi : i < palette.length) (h : ∀ color, Q color c) : wp F (paletteAt palette i) Q c := by
  unfold wp paletteAt
  rw [List.getElem?_eq_getElem hi]
  exact h _

theorem wp_paletteRows {f : TightFilter} {data : List UInt8} (h : Inside c) (hf : f.filter = 1)
    (hpalette : 0 < f.palette.length) (hdata : data.length = f.rowBytes c.rect.w * c.rect.h)
    (hfits : data.length < 2 ^ 31) : wp F (paletteRows c.rect f data) (fun _ => Painted c) c := by
  unfold paletteRows
  refine wp_dataRows (Nat.le_of_eq hdata.symm) hfits fun row y x c' hrow hy hx hp => ?_
  have h1 := h.1
  have h2 := h.2
  have hpaint : ∀ i, i < f.palette.length → wp F (do
      let color ← paletteAt f.palette i
      setPixel (c.rect.x + x) (c.rect.y + y) color) (fun _ => Painted c) c' := by
    intro i hi
    simp only [wp_bind]
    exact wp_paletteAt hi fun color => wp_setPixel hp (by omega) (by omega)
  simp only [wp_bind] at hpaint ⊢
  unfold TightFilter.rowBytes at hrow
  rw [if_pos hf] at hrow
  cases ho : f.onebit with
  | true =>
    rw [ho, if_pos rfl] at hrow
    have hlen : f.palette.length = 2 := (of_decide_eq_true ho).2
    simp only [if_true, wp_bind, wp_pure]
    exact wp_byteOf (by omega) fun b => hpaint _ (by rw [hlen]; exact Nat.mod_lt _ (by decide))
  | false =>
    rw [ho, if_neg (by decide)] at hrow
    simp only [Bool.false_eq_true, if_false, wp_bind, wp_pure]
    exact wp_byteOf (by omega) fun b => hpaint _ (Nat.mod_lt _ hpalette)

theorem wp_gradientPixel {row x k : Nat} {prev data cur : List UInt8} {Q : UInt8 → VncClient E → Prop}
    (hdata : row + (x * 3 + k) < data.length) (hprev : x * 3 + k < prev.length) (hcur : cur.length = x * 3)
    (hk : k < 3) (h : ∀ b, Q b c) : wp F (gradientPixel row prev data x cur k) Q c := by
  unfold gradientPixel
  simp only [wp_bind]
  refine wp_byteOf hdata fun coded => wp_byteOf hprev fun above => wp_ite (fun _ => h _) (fun hx => ?_)
  simp only [wp_bind, wp_pure]
  exact wp_byteOf (by omega) fun left => wp_byteOf (by omega) fun aboveLeft => h _

theorem wp_gradientRows {data : List UInt8} (h : Inside c) (hdata : data.length = c.rect.w * 3 * c.rect.h)
    (hfits : data.length < 2 ^ 31) :
    wp F (gradientRows c.rect (c.rect.w * 3) data) (fun _ => Painted c) c := by
  have h1 := h.1
  have h2 := h.2
  unfold gradientRows
  simp only [wp_bind, wp_pure]
  -- the rows: the row above has all its components
  refine wp_mono (wp_foldRange (I := fun _ (prev : List UInt8) c' => prev.length = c.rect.w * 3 ∧ Painted c c')
    (fun y prev c₁ hy hp => ?_) ⟨List.length_replicate, Painted.refl c⟩) fun _ _ hp => hp.2
  obtain ⟨hprev, hp⟩ := hp
  have hend := row_end hy (Nat.le_of_eq hdata.symm)
  simp only [wp_bind]
  refine wp_int32 (fun hover => absurd hover (by omega)) fun _ => ?_
  -- the pixels of a row: this row has the components of the pixels so far
  refine wp_mono (wp_foldRange (I := fun x (cur : List UInt8) c' => cur.length = x * 3 ∧ Painted c c')
    (fun x cur c₂ hx hp₂ => ?_) ⟨rfl, hp⟩) fun _ _ hp => hp
  obtain ⟨hcur, hp₂⟩ := hp₂
  simp only [wp_bind, wp_pure]
  refine wp_gradientPixel (by omega) (by omega) hcur (by decide) fun red => ?_
  refine wp_gradientPixel (by omega) (by omega) hcur (by decide) fun green => ?_
  refine wp_gradientPixel (by omega) (by omega) hcur (by decide) fun blue => ?_
  refine wp_mono (wp_setPixel hp₂ (by omega) (by omega)) fun _ c₃ hp₃ => ⟨?_, hp₃⟩
  rw [List.length_append, hcur, Nat.succ_mul]
  rfl

theorem wp_tightPixels {f : TightFilter} {data bytes : List UInt8} (h : Inside c) (hf : FilterOk bytes f)
    (hdata : data.length = f.rowBytes c.rect.w * c.rect.h) (hfits : data.length < 2 ^ 31) :
    wp F (tightPixels c.rect f data) (fun _ => Painted c) c := by
  unfold tightPixels
  refine wp_ite (fun hone => wp_paletteRows h hone (hf.palette hone) hdata hfits) (fun hone => ?_)
  have hrow : f.rowBytes c.rect.w = c.rect.w * 3 := by rw [TightFilter.rowBytes, if_neg hone]
  rw [hrow] at hdata ⊢
  exact wp_ite (fun _ => wp_gradientRows h hdata hfits) (fun _ => wp_rgbRows h hdata hfits)

/-! ## Basic compression -/

theorem tightPlain_after {f : TightFilter} {data : List UInt8} (h : Tiling c) (hf : FilterOk data f)
    (hsmall : f.rowBytes c.rect.w * c.rect.h < 12) :
    wp F (tightPlain c.rect f (f.rowBytes c.rect.w * c.rect.h)) (After c) c := by
  unfold tightPlain
  refine wp_need (.wait (Nat.le_refl _) h.inv) fun hlen => ?_
  rw [wp_bind]
  refine wp_bytes hlen fun pixels hp => ?_
  exact wp_finish h.live (Nat.le_refl _) hlen (wp_tightPixels h.inside hf hp (by omega))

theorem wp_setStream {i : Fin 4} {s : InflateState E} {Q : Unit → VncClient E → Prop}
    (h : ∀ c', StreamsFrom 4 c c' → Q () c') : wp F (setStream i s) Q c :=
  h _ ⟨_, rfl, fun i hi => absurd i.isLt (Nat.not_lt.mpr hi)⟩

theorem wp_tightStream {i : Fin 4} {Q : Option (InflateState E) → VncClient E → Prop}
    (h : ∀ s c', StreamsFrom 4 c c' → Q s c') : wp F (tightStream i) Q c := by
  unfold tightStream
  simp only [wp_bind, wp_gets]
  cases c.tightStreams i with
  | some s => exact h _ c ⟨c.tightStreams, rfl, fun _ _ => rfl⟩
  | none =>
    cases resetStream c.tightStreams i with
    | none =>
      simp only [wp_bind, wp_pure]
      exact wp_setStream fun c' hs => h _ c' hs
    | some s =>
      simp only [wp_bind, wp_pure]
      exact wp_setStream fun c' hs => h _ c' hs

theorem inflateExact_length {zs : E.zlib.Stream} {input : List UInt8} {expected : Nat}
    (h : (inflateExact zs input expected).ok = true) :
    (inflateExact zs input expected).out.length = expected := by
  unfold inflateExact at h ⊢
  exact (of_decide_eq_true h).2

theorem StreamsFrom.trans {c₂ : VncClient E} (h : StreamsFrom 4 c c') (h' : StreamsFrom 4 c' c₂) :
    StreamsFrom 4 c c₂ := by
  obtain ⟨s, rfl, _⟩ := h
  obtain ⟨s', rfl, _⟩ := h'
  exact ⟨s', rfl, fun i hi => absurd i.isLt (Nat.not_lt.mpr hi)⟩

theorem tightCompressed_after {f : TightFilter} {data : List UInt8} {stream : Fin 4} (h : Tiling c)
    (hf : FilterOk data f) (hfits : f.rowBytes c.rect.w * c.rect.h < 2 ^ 31) :
    wp F (tightCompressed c.rect f stream (f.rowBytes c.rect.w * c.rect.h)) (After c) c := by
  unfold tightCompressed
  simp only [wp_bind]
  refine wp_compactLength (.wait (Nat.le_refl _) h.inv) fun n length => ?_
  refine wp_need (.wait (Nat.le_refl _) h.inv) fun hlen => ?_
  simp only [wp_bind]
  refine wp_tightStream fun state c₁ hs => ?_
  have ht := hs.tiling h
  have hle : c₁.buf.length ≤ c.buf.length := Nat.le_of_eq (by rw [hs.buf])
  cases state with
  | none => exact wp_failStep ht.live.failed (.failed _ hle)
  | some state =>
    simp only [wp_bind]
    refine wp_bytes (by rw [hs.buf]; exact hlen) fun input _ => ?_
    cases state.zs with
    | none => exact wp_failStep ht.live.failed (.failed _ hle)
    | some zs =>
      simp only [wp_bind]
      refine wp_setStream fun c₂ hs₂ => ?_
      have hs₂ := hs.trans hs₂
      have ht₂ := hs₂.tiling h
      have hle₂ : c₂.buf.length ≤ c.buf.length := Nat.le_of_eq (by rw [hs₂.buf])
      refine wp_ite (fun _ => wp_failStep ht₂.live.failed (.failed _ hle₂)) (fun hok => ?_)
      have hout : (inflateExact zs input (f.rowBytes c.rect.w * c.rect.h)).out.length =
          f.rowBytes c₂.rect.w * c₂.rect.h := by
        rw [hs₂.rect]
        exact inflateExact_length (by simpa using hok)
      rw [← hs₂.rect] at hfits
      have hpixels := wp_tightPixels (F := F) ht₂.inside hf hout (by rw [hout]; exact hfits)
      rw [hs₂.rect] at hpixels
      exact wp_finish ht₂.live hle₂ (by rw [hs₂.buf]; exact hlen) hpixels

theorem tightBasic_after {control : UInt8} (h : Tiling c) (hcontrol : c.buf[0]? = some control)
    (hkind : ¬ control.toNat / 16 > 7)
    (hover : ∀ rowBytes, tightRowBytes c.rect.w c.buf = some rowBytes → ¬ rowBytes * c.rect.h < 2 ^ 31 →
      F .intOverflow) : wp F (tightBasic control) (After c) c := by
  unfold tightBasic
  simp only [wp_bind]
  refine wp_tightFilter hcontrol hkind ?_ ?_ fun f hf => ?_
  · exact .wait (Nat.le_refl _) h.inv
  · exact wp_failStep h.live.failed (.failed _ (Nat.le_refl _))
  · have hw := h.ok.width_lt
    have hrow : f.rowBytes c.rect.w ≤ c.rect.w * 3 := by
      unfold TightFilter.rowBytes
      split
      · split <;> omega
      · exact Nat.le_refl _
    unfold tightFiltered
    simp only [wp_bind, wp_gets]
    refine wp_int32 (fun hno => absurd hno (by omega)) fun _ => ?_
    refine wp_int32 (hover _ (hf.rowBytes c.rect.w)) fun hfits => ?_
    exact wp_ite (fun hsmall => tightPlain_after h hf hsmall) (fun _ => tightCompressed_after h hf hfits)

/-- The size of a basic Tight rectangle fits an `int`. -/
def TightFits (c : VncClient E) : Prop :=
  ∀ control rowBytes, c.buf[0]? = some control → ResetsGranted control c →
    tightRowBytes c.rect.w c.buf = some rowBytes → rowBytes * c.rect.h < 2 ^ 31

theorem stepTight_after (h : Tiling c) (hover : ¬ TightFits c → F .intOverflow) :
    wp F stepTight (After c) c := by
  unfold stepTight
  refine wp_need (.wait (Nat.le_refl _) h.inv) fun hlen => ?_
  simp only [wp_bind]
  refine wp_u8 (by omega) fun control hcontrol => ?_
  refine wp_mono (resetStreams_spec control h.live.failed) fun ok c₁ hr => ?_
  cases ok with
  | false =>
    obtain ⟨hinv, hbuf⟩ := hr
    exact .wait (Nat.le_of_eq (by rw [hbuf])) hinv
  | true =>
    obtain ⟨hs, hgranted⟩ := hr
    have ht := hs.tiling h
    have hle : c₁.buf.length ≤ c.buf.length := Nat.le_of_eq (by rw [hs.buf])
    suffices hkind : wp F (tightKind control) (After c₁) c₁ from
      wp_mono hkind fun _ _ ha => ha.of_le hle
    unfold tightKind
    refine wp_ite (fun _ => tightFill_after ht) (fun _ => ?_)
    refine wp_ite (fun _ => tightJpeg_after ht) (fun _ => ?_)
    refine wp_ite (fun _ => wp_failStep ht.live.failed (.failed _ (Nat.le_refl _))) (fun hkind => ?_)
    refine tightBasic_after ht (by rw [hs.buf]; exact hcontrol) (by omega) fun rowBytes hrow hno => ?_
    rw [hs.rect, hs.buf] at hrow
    rw [hs.rect] at hno
    exact hover fun hfits => hno (hfits control rowBytes hcontrol (fun i => hgranted i i.isLt) hrow)

end LvdTerm.Vnc
