import LvdTerm.Vnc.HextileExact
import LvdTerm.Vnc.TightFormat

/-!
# VNC client: Tight rectangles against the format

Each filter is undone pixel by pixel from data that is all there; for the gradient the row above and
the pixels to the left are those of the picture by then. Around the filters the streams of the client
stay those of the encoder.
-/
namespace LvdTerm.Vnc

open Lib Lib.Action

variable {E : Env} {F : Fault → Prop} {c c' : VncClient E}

/-! ## Rows -/

theorem rowsOf_length {h m : Nat} {row : Nat → List UInt8} (hrow : ∀ y, (row y).length = m) : (rowsOf h row).length = m * h := by
  induction h with
  | zero => rfl
  | succ h ih =>
    unfold rowsOf at ih ⊢
    rw [List.range_succ, List.flatMap_append, List.flatMap_singleton, List.length_append, ih, hrow, Nat.mul_succ]

/-- Byte `k` of row `y`. -/
theorem rowsOf_get {h m : Nat} {row : Nat → List UInt8} (hrow : ∀ y, (row y).length = m) {y k : Nat} (hy : y < h) (hk : k < m) :
    (rowsOf h row)[y * m + k]? = (row y)[k]? := by
  induction h with
  | zero => cases hy
  | succ h ih =>
    have hsplit : rowsOf (h + 1) row = rowsOf h row ++ row h := by
      unfold rowsOf
      rw [List.range_succ, List.flatMap_append, List.flatMap_singleton]
    have hlen := rowsOf_length (h := h) hrow
    rw [hsplit]
    by_cases hlast : y = h
    · subst hlast
      rw [List.getElem?_append_right (by rw [hlen, Nat.mul_comm]; exact Nat.le_add_right _ _), hlen, Nat.mul_comm,
        Nat.add_sub_cancel_left]
    · have hlt : y * m + k < m * h := by
        calc y * m + k < y * m + m := Nat.add_lt_add_left hk _
          _ = (y + 1) * m := (Nat.succ_mul y m).symm
          _ ≤ h * m := Nat.mul_le_mul_right m (by omega)
          _ = m * h := Nat.mul_comm h m
      rw [List.getElem?_append_left (by rw [hlen]; exact hlt)]
      exact ih (by omega)

theorem pixelRow_length {w : Nat} {pixel : Nat → List UInt8} (hpixel : ∀ x, (pixel x).length = 3) : (pixelRow w pixel).length = w * 3 := by
  rw [Nat.mul_comm]
  exact rowsOf_length hpixel

theorem pixelRow_get {w : Nat} {pixel : Nat → List UInt8} (hpixel : ∀ x, (pixel x).length = 3) {x k : Nat} (hx : x < w) (hk : k < 3) :
    (pixelRow w pixel)[x * 3 + k]? = (pixel x)[k]? :=
  rowsOf_get hpixel hx hk

/-- Component `k` of pixel `x` of row `y`. -/
theorem pixels_get {w h : Nat} {pixel : Nat → Nat → List UInt8} (hpixel : ∀ x y, (pixel x y).length = 3) {x y k : Nat} (hy : y < h)
    (hx : x < w) (hk : k < 3) : (rowsOf h fun y => pixelRow w fun x => pixel x y)[y * (w * 3) + (x * 3 + k)]? = (pixel x y)[k]? := by
  rw [rowsOf_get (m := w * 3) (fun y => pixelRow_length fun x => hpixel x y) hy (by omega)]
  exact pixelRow_get (fun x => hpixel x y) hx hk

theorem byteOf_apply {data : List UInt8} {i : Nat} {b : UInt8} (h : data[i]? = some b) : byteOf data i c = .ok (b, c) := by
  unfold byteOf
  rw [h]

theorem paletteAt_apply {palette : List QRgb} {i : Nat} {color : QRgb} (h : palette[i]? = some color) :
    paletteAt palette i c = .ok (color, c) := by
  unfold paletteAt
  rw [h]

/-- A row offset that fits an `int`. -/
theorem int32_apply {n : Nat} (h : n < 2 ^ 31) : int32 n c = .ok (n, c) := if_pos h

/-- The rows of a rectangle, each found through an `int` offset, and drawn. -/
theorem wp_drawDataRows {r : Rect} {rowBytes : Nat} {pixel : Nat → Nat → Nat → ClientM E Unit} {f : Nat → Nat → QRgb}
    (hfits : rowBytes * r.h < 2 ^ 31)
    (hpixel : ∀ y x c', y < r.h → x < r.w → Painted c c' →
      wp F (pixel (y * rowBytes) y x) (fun _ c'' => c'' = { c' with work := c'.work.set (r.x + x) (r.y + y) (f x y) }) c') :
    wp F (forRange r.h fun y => do
      let row ← int32 (y * rowBytes)
      forRange r.w fun x => pixel row y x) (fun _ c' => c' = c.draw r f) c := by
  refine wp_drawRows fun y c₁ hy hp => ?_
  have hrow : y * rowBytes < 2 ^ 31 := by
    refine Nat.lt_of_le_of_lt ?_ hfits
    rw [Nat.mul_comm rowBytes]
    exact Nat.mul_le_mul_right rowBytes (Nat.le_of_lt hy)
  unfold wp
  rw [bind_of_ok (int32_apply hrow)]
  exact wp_drawCols fun x c₂ hx hp₂ => hpixel y x c₂ hy hx (hp.trans hp₂)

section Filters

variable {picture : Nat → Nat → Rgb}

/-- The picture, in the colours of the screen. -/
def colours (picture : Nat → Nat → Rgb) (x y : Nat) : QRgb := (picture x y).color

theorem wp_rgbRows_eq {data : List UInt8} (hin : Inside c) (hfits : c.rect.w * 3 * c.rect.h < 2 ^ 31)
    (hdata : data = rowsOf c.rect.h fun y => pixelRow c.rect.w fun x => (picture x y).tpixel) :
    wp F (rgbRows c.rect (c.rect.w * 3) data) (fun _ c' => c' = c.draw c.rect (colours picture)) c := by
  unfold rgbRows
  refine wp_drawDataRows hfits fun y x c' hy hx hp => ?_
  have hget {k : Nat} (hk : k < 3) : data[y * (c.rect.w * 3) + (x * 3 + k)]? = (picture x y).tpixel[k]? := by
    rw [hdata]
    exact pixels_get (fun x y => (picture x y).tpixel_length) hy hx hk
  have hred : byteOf data (y * (c.rect.w * 3) + x * 3) c' = .ok ((picture x y).r, c') := byteOf_apply (hget (k := 0) (by decide))
  have hgreen : byteOf data (y * (c.rect.w * 3) + (x * 3 + 1)) c' = .ok ((picture x y).g, c') := byteOf_apply (hget (by decide))
  have hblue : byteOf data (y * (c.rect.w * 3) + (x * 3 + 2)) c' = .ok ((picture x y).b, c') := byteOf_apply (hget (by decide))
  unfold wp
  rw [bind_of_ok hred, bind_of_ok hgreen, bind_of_ok hblue]
  exact wp_setPixel_in hin hp hy hx

/-- A pixel of a palette rectangle, once its index is known. -/
theorem wp_palettePixel {palette : List Rgb} {f : TightFilter} {x y i : Nat} (hin : Inside c) (hp : Painted c c')
    (hpalette : f.palette = palette.map Rgb.color) (hy : y < c.rect.h) (hx : x < c.rect.w) (hi : palette[i]? = some (picture x y)) :
    wp F (do
      let color ← paletteAt f.palette i
      setPixel (c.rect.x + x) (c.rect.y + y) color)
      (fun _ c'' => c'' = { c' with work := c'.work.set (c.rect.x + x) (c.rect.y + y) (colours picture x y) }) c' := by
  have hcolor : paletteAt f.palette i c' = .ok (colours picture x y, c') := by
    refine paletteAt_apply ?_
    rw [hpalette, List.getElem?_map, hi]
    rfl
  unfold wp
  rw [bind_of_ok hcolor]
  exact wp_setPixel_in hin hp hy hx

theorem wp_bitRows {palette : List Rgb} {f : TightFilter} {index : Nat → Nat → Nat} (hin : Inside c)
    (hfits : (c.rect.w + 7) / 8 * c.rect.h < 2 ^ 31) (hone : f.filter = 1) (hpalette : f.palette = palette.map Rgb.color)
    (hsize : palette.length = 2) (hindex : ∀ y x, index y x < 2)
    (hpicture : ∀ y < c.rect.h, ∀ x < c.rect.w, palette[index y x]? = some (picture x y)) :
    wp F (paletteRows c.rect f (packedRows 1 c.rect.w c.rect.h index)) (fun _ c' => c' = c.draw c.rect (colours picture)) c := by
  have hbits : f.onebit = true := by simp [TightFilter.onebit, hone, hpalette, hsize]
  have hrow : f.rowBytes c.rect.w = (c.rect.w + 7) / 8 := by rw [TightFilter.rowBytes, if_pos hone, if_pos hbits]
  unfold paletteRows
  rw [hrow]
  refine wp_drawDataRows hfits fun y x c' hy hx hp => ?_
  obtain ⟨b, hb, hdigit⟩ := packedRows_digit (.inl rfl) (fun y x => hindex y x) [] hx hy
  rw [List.append_nil, Nat.mul_one, Nat.mul_one] at hb
  have hbyte : byteOf (packedRows 1 c.rect.w c.rect.h index) (y * ((c.rect.w + 7) / 8) + x / 8) c' = .ok (b, c') := byteOf_apply hb
  have hi := hpicture y hy x hx
  have hbit : b.toNat / 2 ^ (7 - x % 8) % 2 = index y x := by
    rw [← hdigit, Nat.one_mul, Nat.pow_one, Nat.div_one]
    exact congrArg (fun n => b.toNat / 2 ^ n % 2) (by omega)
  unfold wp
  rw [hbits, if_pos rfl, bind_of_ok hbyte]
  rw [← hbit] at hi
  exact wp_palettePixel hin hp hpalette hy hx hi

theorem wp_indexRows {palette : List Rgb} {f : TightFilter} {index : Nat → Nat → Nat} (hin : Inside c)
    (hfits : c.rect.w * c.rect.h < 2 ^ 31) (hone : f.filter = 1) (hpalette : f.palette = palette.map Rgb.color)
    (hsize : 3 ≤ palette.length ∧ palette.length ≤ 256)
    (hpicture : ∀ y < c.rect.h, ∀ x < c.rect.w, palette[index y x]? = some (picture x y)) :
    wp F (paletteRows c.rect f (rowsOf c.rect.h fun y => (List.range c.rect.w).map fun x => UInt8.ofNat (index y x)))
      (fun _ c' => c' = c.draw c.rect (colours picture)) c := by
  have hlen : f.palette.length = palette.length := by rw [hpalette, List.length_map]
  have hbits : f.onebit = false := by
    simp only [TightFilter.onebit, hlen, decide_eq_false_iff_not]
    omega
  have hrow : f.rowBytes c.rect.w = c.rect.w := by rw [TightFilter.rowBytes, if_pos hone, hbits, if_neg (by decide)]
  unfold paletteRows
  rw [hrow]
  refine wp_drawDataRows hfits fun y x c' hy hx hp => ?_
  have hi := hpicture y hy x hx
  have hlt : index y x < palette.length := (List.getElem?_eq_some_iff.mp hi).1
  have hget : (rowsOf c.rect.h fun y => (List.range c.rect.w).map fun x => UInt8.ofNat (index y x))[y * c.rect.w + x]? =
      some (UInt8.ofNat (index y x)) := by
    rw [rowsOf_get (fun y => by rw [List.length_map, List.length_range]) hy hx, List.getElem?_map, List.getElem?_range hx]
    rfl
  have hindex : (UInt8.ofNat (index y x)).toNat % f.palette.length = index y x := by
    rw [UInt8.toNat_ofNat_of_lt' (show index y x < 256 by omega), hlen, Nat.mod_eq_of_lt hlt]
  unfold wp
  rw [hbits, if_neg (by decide), bind_of_ok (byteOf_apply hget)]
  rw [← hindex] at hi
  exact wp_palettePixel hin hp hpalette hy hx hi

/-! ### Gradient -/

/-- The residual and the prediction add up to the component. -/
theorem gradientByte_residual (picture : Nat → Nat → Rgb) (k x y : Nat) :
    gradientByte (residual picture k x y) (leftOf picture k x y) (aboveOf picture k x y) (aboveLeftOf picture k x y) =
      (picture x y).part k := by
  unfold gradientByte residual predicted
  have hv := ((picture x y).part k).toNat_lt
  have hl := (leftOf picture k x y).toNat_lt
  have ha := (aboveOf picture k x y).toNat_lt
  have hal := (aboveLeftOf picture k x y).toNat_lt
  apply UInt8.toNat_inj.mp
  rw [UInt8.toNat_ofNat', UInt8.toNat_ofNat']
  generalize ((picture x y).part k).toNat = v at hv ⊢
  generalize (leftOf picture k x y).toNat = l at hl ⊢
  generalize (aboveOf picture k x y).toNat = a at ha ⊢
  generalize (aboveLeftOf picture k x y).toNat = al at hal ⊢
  split
  next hless =>
    have hnone : (max 0 (min 255 ((l : Int) + a - al))).toNat = 0 := by omega
    rw [hnone]
    omega
  next hmore =>
    have hsame : (max 0 (min 255 ((l : Int) + a - al))).toNat = min (l + a - al) 255 := by omega
    rw [hsame]
    omega

theorem gradientPixel_apply {row x y k : Nat} {prev data cur : List UInt8}
    (hcoded : data[row + (x * 3 + k)]? = some (residual picture k x y))
    (habove : ∀ x' ≤ x, prev[x' * 3 + k]? = some (aboveOf picture k x' y))
    (hleft : ∀ x' < x, cur[x' * 3 + k]? = some ((picture x' y).part k)) :
    gradientPixel row prev data x cur k c = .ok ((picture x y).part k, c) := by
  have hundone := gradientByte_residual picture k x y
  unfold gradientPixel
  rw [bind_of_ok (byteOf_apply hcoded), bind_of_ok (byteOf_apply (habove x (Nat.le_refl x)))]
  by_cases hx : x = 0
  · have hl : leftOf picture k x y = 0 := if_pos hx
    have hal : aboveLeftOf picture k x y = 0 := if_pos (.inl hx)
    rw [hl, hal] at hundone
    rw [if_pos hx, hundone]
    rfl
  · have hl : leftOf picture k x y = (picture (x - 1) y).part k := if_neg hx
    have hal : aboveLeftOf picture k x y = aboveOf picture k (x - 1) y := by
      unfold aboveLeftOf aboveOf
      by_cases hy : y = 0
      · rw [if_pos (.inr hy), if_pos hy]
      · rw [if_neg (by simp [hx, hy]), if_neg hy]
    rw [hl, hal] at hundone
    rw [if_neg hx, bind_of_ok (byteOf_apply (hleft (x - 1) (by omega))), bind_of_ok (byteOf_apply (habove (x - 1) (by omega))),
      hundone]
    rfl

/-- The components of the row above: none above the first. -/
def rowAbove (picture : Nat → Nat → Rgb) (w y : Nat) : List UInt8 :=
  if y = 0 then List.replicate (w * 3) 0 else pixelRow w fun x => (picture x (y - 1)).tpixel

theorem tpixel_part (c : Rgb) {k : Nat} (hk : k < 3) : c.tpixel[k]? = some (c.part k) := by
  have hlt : k < c.tpixel.length := hk
  unfold Rgb.part
  rw [List.getD_eq_getElem?_getD, List.getElem?_eq_getElem hlt]
  rfl

theorem rowAbove_get {w x y k : Nat} (hx : x < w) (hk : k < 3) :
    (rowAbove picture w y)[x * 3 + k]? = some (aboveOf picture k x y) := by
  unfold rowAbove aboveOf
  by_cases hy : y = 0
  · rw [if_pos hy, if_pos hy, List.getElem?_replicate, if_pos (by omega)]
  · rw [if_neg hy, if_neg hy, pixelRow_get (fun x => (picture x (y - 1)).tpixel_length) hx hk, tpixel_part _ hk]

theorem wp_gradientRows_eq {data : List UInt8} (hin : Inside c) (hfits : c.rect.w * 3 * c.rect.h < 2 ^ 31)
    (hdata : data = rowsOf c.rect.h fun y => pixelRow c.rect.w fun x =>
      [residual picture 0 x y, residual picture 1 x y, residual picture 2 x y]) :
    wp F (gradientRows c.rect (c.rect.w * 3) data) (fun _ c' => c' = c.draw c.rect (colours picture)) c := by
  have hcoded {k x y : Nat} (hk : k < 3) (hx : x < c.rect.w) (hy : y < c.rect.h) :
      data[y * (c.rect.w * 3) + (x * 3 + k)]? = some (residual picture k x y) := by
    rw [hdata, pixels_get (fun x y => rfl) hy hx hk]
    match k, hk with
    | 0, _ => rfl
    | 1, _ => rfl
    | 2, _ => rfl
  unfold gradientRows
  simp only [wp_bind, wp_pure]
  -- after `y` rows, they are drawn and the last of them is kept
  refine wp_mono (wp_foldRange (I := fun y (prev : List UInt8) c' => prev = rowAbove picture c.rect.w y ∧
    c' = c.draw ⟨c.rect.x, c.rect.y, c.rect.w, y⟩ (colours picture)) (fun y prev c₁ hy hrows => ?_)
    ⟨rfl, (draw_empty c _ (.inr rfl)).symm⟩) fun _ _ h => h.2
  obtain ⟨rfl, rfl⟩ := hrows
  have hrow : y * (c.rect.w * 3) < 2 ^ 31 := by
    refine Nat.lt_of_le_of_lt ?_ hfits
    rw [Nat.mul_comm (c.rect.w * 3)]
    exact Nat.mul_le_mul_right _ (Nat.le_of_lt hy)
  simp only [wp_bind]
  refine wp_int32 (fun hover => absurd hrow hover) fun _ => ?_
  -- after `x` pixels of the row, they are drawn and their components are kept
  refine wp_mono (wp_foldRange (I := fun x (cur : List UInt8) c' => cur = pixelRow x (fun x => (picture x y).tpixel) ∧
    c' = (c.draw ⟨c.rect.x, c.rect.y, c.rect.w, y⟩ (colours picture)).draw ⟨c.rect.x, c.rect.y + y, x, 1⟩
      (fun col _ => colours picture col y)) (fun x cur c₂ hx hpixels => ?_) ⟨rfl, (draw_empty _ _ (.inl rfl)).symm⟩) fun cur c₂ h => ?_
  · obtain ⟨rfl, rfl⟩ := hpixels
    have hpart {k : Nat} (hk : k < 3) {c' : VncClient E} := gradientPixel_apply (c := c') (hcoded hk hx hy)
      (fun x' hx' => rowAbove_get (show x' < c.rect.w by omega) hk)
      (fun x' hx' => (pixelRow_get (fun x => (picture x y).tpixel_length) hx' hk).trans (tpixel_part _ hk))
    obtain ⟨hix, hiy⟩ := hin
    unfold wp
    rw [bind_of_ok (hpart (k := 0) (by decide)), bind_of_ok (hpart (k := 1) (by decide)), bind_of_ok (hpart (k := 2) (by decide))]
    have hset : wp F (setPixel (c.rect.x + x) (c.rect.y + y) (colours picture x y))
        (fun _ c' => c' = (c.draw ⟨c.rect.x, c.rect.y, c.rect.w, y⟩ (colours picture)).draw ⟨c.rect.x, c.rect.y + y, x + 1, 1⟩
          (fun col _ => colours picture col y))
        ((c.draw ⟨c.rect.x, c.rect.y, c.rect.w, y⟩ (colours picture)).draw ⟨c.rect.x, c.rect.y + y, x, 1⟩
          (fun col _ => colours picture col y)) := by
      refine wp_mono (wp_setPixel_eq ?_ ?_) fun _ c' h => h.trans ?_
      · exact Nat.lt_of_lt_of_le (Nat.add_lt_add_left hx _) hix
      · exact Nat.lt_of_lt_of_le (Nat.add_lt_add_left hy _) hiy
      · exact congrArg (fun i => { c with work := i })
          ((c.work.drawn ⟨c.rect.x, c.rect.y, c.rect.w, y⟩ (colours picture)).drawn_col c.rect.x (c.rect.y + y) x
            (fun col _ => colours picture col y))
    show wp F _ _ _
    rw [wp_bind]
    refine wp_mono hset fun _ c' h => ⟨?_, h⟩
    unfold pixelRow
    rw [List.range_succ, List.flatMap_append, List.flatMap_singleton]
    rfl
  · obtain ⟨rfl, rfl⟩ := h
    refine ⟨?_, ?_⟩
    · unfold rowAbove
      rw [if_neg (Nat.succ_ne_zero y)]
      rfl
    · exact congrArg (fun i => { c with work := i }) (c.work.drawn_row c.rect.x c.rect.y c.rect.w y (colours picture))

end Filters

/-! ## Headers -/

section Headers

variable {pos : Nat} {y : List UInt8}

theorem flatMap_tpixel_length (palette : List Rgb) : (palette.flatMap Rgb.tpixel).length = palette.length * 3 := by
  induction palette with
  | nil => rfl
  | cons p palette ih =>
    rw [List.flatMap_cons, List.length_append, ih, Rgb.tpixel_length, List.length_cons, Nat.succ_mul, Nat.add_comm]

theorem readTightPalette_apply {palette : List Rgb} (h : Front c.buf pos (palette.flatMap Rgb.tpixel ++ y)) :
    readTightPalette pos palette.length c = .ok (palette.map Rgb.color, c) := by
  -- after `i` rounds, `i` colours have been read
  have hloop : wp (fun _ => False) (readTightPalette pos palette.length)
      (fun colors c' => colors = (palette.take palette.length).map Rgb.color ∧ c' = c) c := by
    unfold readTightPalette
    refine wp_foldRange (I := fun i colors c' => colors = (palette.take i).map Rgb.color ∧ c' = c)
      (fun i colors c' hi hcolors => ?_) ⟨rfl, rfl⟩
    obtain ⟨rfl, rfl⟩ := hcolors
    have hitem := h.item hi
    rw [flatMap_tpixel_length, List.length_take, Nat.min_eq_left (Nat.le_of_lt hi)] at hitem
    have hred : u8 (pos + i * 3) c' = .ok (palette[i].r, c') := hitem.byte
    have hgreen : u8 (pos + i * 3 + 1) c' = .ok (palette[i].g, c') := (Front.next (x := [_]) hitem).byte
    have hblue : u8 (pos + i * 3 + 2) c' = .ok (palette[i].b, c') := (Front.next (x := [_, _]) hitem).byte
    unfold wp
    rw [bind_of_ok hred, bind_of_ok hgreen, bind_of_ok hblue]
    refine ⟨?_, rfl⟩
    rw [← List.take_append_getElem hi, List.map_append]
    rfl
  rw [List.take_length] at hloop
  exact eq_ok_of_wp hloop

theorem peek_enough {α : Type} {n : Nat} {m : ClientM E (Option α)} (h : n ≤ c.buf.length) : peek n m c = m c := by
  unfold peek avail
  rw [bind_of_ok (gets_apply _ _), if_neg (by omega)]

theorem compactLength_apply {n : Nat} {length : List UInt8} (hlength : Compact n length) (h : Front c.buf pos (length ++ y)) :
    compactLength pos c = .ok (some (length.length, n), c) := by
  have hlow {a : Nat} (ha : a < 128) : UInt8.ofNat a < 128 ∧ (UInt8.ofNat a).toNat % 128 = a := by
    have hnat : (UInt8.ofNat a).toNat = a := UInt8.toNat_ofNat_of_lt' (show a < 256 by omega)
    refine ⟨UInt8.lt_iff_toNat_lt.mpr ?_, ?_⟩
    · rw [hnat]
      exact ha
    · rw [hnat, Nat.mod_eq_of_lt ha]
  have hhigh {a : Nat} (ha : a < 128) : ¬ UInt8.ofNat (a + 128) < 128 ∧ (UInt8.ofNat (a + 128)).toNat % 128 = a := by
    have hnat : (UInt8.ofNat (a + 128)).toNat = a + 128 := UInt8.toNat_ofNat_of_lt' (show a + 128 < 256 by omega)
    refine ⟨fun hlt => ?_, ?_⟩
    · have hlt' := UInt8.lt_iff_toNat_lt.mp hlt
      rw [hnat] at hlt'
      exact absurd hlt' (by simp)
    · rw [hnat, Nat.add_mod_right, Nat.mod_eq_of_lt ha]
  have hle := h.le
  unfold compactLength
  cases hlength with
  | one _ ha =>
    have hle : pos + 1 ≤ c.buf.length := hle
    have h0 : u8 pos c = .ok (UInt8.ofNat n, c) := h.byte
    rw [peek_enough hle, bind_of_ok h0, if_pos (hlow ha).1, (hlow ha).2]
    rfl
  | two a b ha hb =>
    have hle : pos + 2 ≤ c.buf.length := hle
    have h0 : u8 pos c = .ok (UInt8.ofNat (a + 128), c) := h.byte
    have h1 : u8 (pos + 1) c = .ok (UInt8.ofNat b, c) := (Front.next (x := [_]) h).byte
    rw [peek_enough (by omega), bind_of_ok h0, if_neg (hhigh ha).1, peek_enough hle, bind_of_ok h1, if_pos (hlow hb).1, (hhigh ha).2, (hlow hb).2]
    rfl
  | three a b d ha hb hd =>
    have hle : pos + 3 ≤ c.buf.length := hle
    have h0 : u8 pos c = .ok (UInt8.ofNat (a + 128), c) := h.byte
    have h1 : u8 (pos + 1) c = .ok (UInt8.ofNat (b + 128), c) := (Front.next (x := [_]) h).byte
    have h2 : u8 (pos + 2) c = .ok (UInt8.ofNat d, c) := (Front.next (x := [_, _]) h).byte
    rw [peek_enough (by omega), bind_of_ok h0, if_neg (hhigh ha).1, peek_enough (by omega), bind_of_ok h1, if_neg (hhigh hb).1, peek_enough hle, bind_of_ok h2, (hhigh ha).2, (hhigh hb).2, UInt8.toNat_ofNat_of_lt' hd]
    rfl

/-- A filter that has been read undoes the encoder's. -/
structure Undoes (r : Rect) (picture : Nat → Nat → Rgb) (data : List UInt8) (f : TightFilter) : Prop where
  size : f.rowBytes r.w * r.h = data.length
  draws : ∀ {E : Env} {c : VncClient E}, c.rect = r → Inside c →
    wp (fun _ => False) (tightPixels r f data) (fun _ c' => c' = c.draw r (colours picture)) c

theorem TightCode.filter {r : Rect} {picture : Nat → Nat → Rgb} {header data : List UInt8} (hcode : TightCode r.w r.h picture header data)
    (hfits : data.length < 2 ^ 31) {control : UInt8} (hcontrol : control.toNat / 64 % 2 = 0 ↔ header = [])
    (h : Front c.buf 1 (header ++ y)) :
    ∃ f, tightFilter control c = .ok (some (.ok f), c) ∧ f.pos = 1 + header.length ∧ Undoes r picture data f := by
  unfold tightFilter
  cases hcode with
  | copy _ hheader =>
    have hlen : (rowsOf r.h fun y => pixelRow r.w fun x => (picture x y).tpixel).length = r.w * 3 * r.h :=
      rowsOf_length fun y => pixelRow_length fun x => (picture x y).tpixel_length
    rw [hlen] at hfits
    have hdraws (f : TightFilter) (hf : f.filter = 0) :
        Undoes r picture (rowsOf r.h fun y => pixelRow r.w fun x => (picture x y).tpixel) f := by
      have hrow : f.rowBytes r.w = r.w * 3 := by rw [TightFilter.rowBytes, if_neg (by rw [hf]; decide)]
      refine ⟨by rw [hrow, hlen], fun hr hin => ?_⟩
      subst hr
      rw [tightPixels, if_neg (by rw [hf]; decide), if_neg (by rw [hf]; decide), hrow]
      exact wp_rgbRows_eq hin hfits rfl
    rcases hheader with rfl | rfl
    · rw [if_pos (hcontrol.mpr rfl)]
      exact ⟨⟨0, [], 1⟩, rfl, rfl, hdraws _ rfl⟩
    · have hle : 1 + 1 ≤ c.buf.length := h.le
      have hfilter : u8 1 c = .ok (0, c) := h.byte
      rw [if_neg (fun h0 => List.cons_ne_nil _ _ (hcontrol.mp h0)), peek_enough hle, bind_of_ok hfilter, if_neg (by decide), if_neg (by decide)]
      exact ⟨⟨0, [], 2⟩, rfl, rfl, hdraws _ rfl⟩
  | bits palette hsize index hindex hpicture =>
    have hpalette : Front c.buf 3 (palette.flatMap Rgb.tpixel ++ y) := Front.next (x := [1, 1]) h
    have hle : 3 + (palette.flatMap Rgb.tpixel).length ≤ c.buf.length := hpalette.le
    rw [flatMap_tpixel_length, hsize] at hle
    have hfilter : u8 1 c = .ok (1, c) := h.byte
    have hcount : u8 2 c = .ok (1, c) := (Front.next (x := [_]) h).byte
    have hcolors := readTightPalette_apply hpalette
    rw [hsize] at hcolors
    rw [if_neg (fun h0 => List.cons_ne_nil _ _ (hcontrol.mp h0)), peek_enough (by omega), bind_of_ok hfilter, if_pos rfl, peek_enough (by omega),
      bind_of_ok hcount]
    refine ⟨⟨1, palette.map Rgb.color, 9⟩, ?_, ?_, ?_, fun hr hin => ?_⟩
    · exact (peek_enough hle).trans (bind_of_ok hcolors)
    · rw [List.length_cons, List.length_cons, flatMap_tpixel_length, hsize]
    · simp [TightFilter.rowBytes, TightFilter.onebit, hsize, packedRows_length]
    · subst hr
      rw [packedRows_length, Nat.mul_one] at hfits
      rw [tightPixels, if_pos rfl]
      exact wp_bitRows hin hfits rfl rfl hsize hindex hpicture
  | indexed palette hsize index hpicture =>
    have hpalette : Front c.buf 3 (palette.flatMap Rgb.tpixel ++ y) := Front.next (x := [1, _]) h
    have hle : 3 + (palette.flatMap Rgb.tpixel).length ≤ c.buf.length := hpalette.le
    rw [flatMap_tpixel_length] at hle
    have hfilter : u8 1 c = .ok (1, c) := h.byte
    have hcount : u8 2 c = .ok (UInt8.ofNat (palette.length - 1), c) := (Front.next (x := [_]) h).byte
    have hnat : (UInt8.ofNat (palette.length - 1)).toNat + 1 = palette.length := by
      rw [UInt8.toNat_ofNat_of_lt' (show palette.length - 1 < 256 by omega)]
      omega
    have hlen : (rowsOf r.h fun y => (List.range r.w).map fun x => UInt8.ofNat (index y x)).length = r.w * r.h :=
      rowsOf_length fun y => by rw [List.length_map, List.length_range]
    rw [hlen] at hfits
    have hrow (f : TightFilter) (hf : f.filter = 1) (hp : f.palette = palette.map Rgb.color) : f.rowBytes r.w = r.w := by
      have hbits : f.onebit = false := by
        simp only [TightFilter.onebit, hp, List.length_map, decide_eq_false_iff_not]
        omega
      rw [TightFilter.rowBytes, if_pos hf, hbits, if_neg (by decide)]
    rw [if_neg (fun h0 => List.cons_ne_nil _ _ (hcontrol.mp h0)), peek_enough (by omega), bind_of_ok hfilter, if_pos rfl, peek_enough (by omega),
      bind_of_ok hcount, hnat]
    refine ⟨⟨1, palette.map Rgb.color, 3 + palette.length * 3⟩, ?_, ?_, ?_, fun hr hin => ?_⟩
    · exact (peek_enough hle).trans (bind_of_ok (readTightPalette_apply hpalette))
    · rw [List.length_cons, List.length_cons, flatMap_tpixel_length]
      simp only
      omega
    · rw [hrow _ rfl rfl, hlen]
    · subst hr
      rw [tightPixels, if_pos rfl]
      exact wp_indexRows hin hfits rfl rfl hsize hpicture
  | gradient =>
    have hle : 1 + 1 ≤ c.buf.length := h.le
    have hfilter : u8 1 c = .ok (2, c) := h.byte
    have hlen : (rowsOf r.h fun y => pixelRow r.w fun x =>
        [residual picture 0 x y, residual picture 1 x y, residual picture 2 x y]).length = r.w * 3 * r.h :=
      rowsOf_length fun y => pixelRow_length fun x => rfl
    rw [hlen] at hfits
    rw [if_neg (fun h0 => List.cons_ne_nil _ _ (hcontrol.mp h0)), peek_enough hle, bind_of_ok hfilter, if_neg (by decide), if_neg (by decide)]
    refine ⟨⟨2, [], 2⟩, rfl, rfl, ?_, fun hr hin => ?_⟩
    · rw [hlen]
      rfl
    · subst hr
      rw [tightPixels, if_neg (by decide), if_pos rfl]
      exact wp_gradientRows_eq hin hfits rfl

end Headers

/-! ## Streams -/

section Streams

variable {D : Deflater E.zlib} {states : Fin 4 → D.State}

/-- The encoder's streams after the resets below `n`. -/
def resetBelow (control : UInt8) (n : Nat) (states : Fin 4 → D.State) (i : Fin 4) : D.State :=
  if i.val < n ∧ control.toNat / 2 ^ i.val % 2 = 1 then D.fresh else states i

theorem resetBelow_other {control : UInt8} {n : Nat} {i : Fin 4} (h : ¬ (i.val = n ∧ control.toNat / 2 ^ i.val % 2 = 1)) :
    resetBelow control (n + 1) states i = resetBelow control n states i := by
  unfold resetBelow
  refine if_congr ⟨fun hin => ⟨?_, hin.2⟩, fun hin => ⟨Nat.lt_succ_of_lt hin.1, hin.2⟩⟩ rfl rfl
  have hne : i.val ≠ n := fun he => h ⟨he, hin.2⟩
  have := hin.1
  omega

/-- A stream that is reset starts anew. -/
theorem InSync.reset {streams : Fin 4 → Option (InflateState E)} (h : InSync D states streams) (i : Fin 4) :
    ∃ zs, resetStream streams i = some ⟨some zs⟩ ∧ D.follows zs D.fresh := by
  rcases h i with ⟨hnone, -⟩ | ⟨zs, hsome, hfollows⟩
  · obtain ⟨zs, hinit, hfollows⟩ := D.init
    refine ⟨zs, ?_, hfollows⟩
    simp [resetStream, hnone, InflateState.reset, hinit]
  · obtain ⟨zs', hreset, hfollows'⟩ := D.reset zs _ hfollows
    refine ⟨zs', ?_, hfollows'⟩
    simp [resetStream, hsome, InflateState.reset, hreset]

theorem resetIfAsked_sync {control : UInt8} {n : Nat} (hn : n < 4) (h : InSync D (resetBelow control n states) c.tightStreams) :
    ∃ streams, resetIfAsked control ⟨n, hn⟩ c = .ok (true, { c with tightStreams := streams }) ∧
      InSync D (resetBelow control (n + 1) states) streams := by
  unfold resetIfAsked
  by_cases hasked : control.toNat / 2 ^ n % 2 = 1
  · obtain ⟨zs, hreset, hfollows⟩ := h.reset ⟨n, hn⟩
    refine ⟨fun j => if j = ⟨n, hn⟩ then some ⟨some zs⟩ else c.tightStreams j, ?_, fun j => ?_⟩
    · rw [if_pos hasked, bind_of_ok (gets_apply _ _), hreset]
      exact bind_of_ok (modify_apply _ _)
    · by_cases hj : j = ⟨n, hn⟩
      · subst hj
        refine .inr ⟨zs, if_pos rfl, ?_⟩
        have hfresh : resetBelow control (n + 1) states ⟨n, hn⟩ = D.fresh := if_pos ⟨Nat.lt_succ_self n, hasked⟩
        rw [hfresh]
        exact hfollows
      · have hother : ¬ (j.val = n ∧ control.toNat / 2 ^ j.val % 2 = 1) := fun he => hj (Fin.ext he.1)
        rw [resetBelow_other hother]
        simp only [if_neg hj]
        exact h j
  · refine ⟨c.tightStreams, ?_, fun j => ?_⟩
    · rw [if_neg hasked]
      rfl
    · have hother : ¬ (j.val = n ∧ control.toNat / 2 ^ j.val % 2 = 1) := by
        rintro ⟨rfl, hj⟩
        exact hasked hj
      rw [resetBelow_other hother]
      exact h j

theorem resetStreams_sync (control : UInt8) (h : InSync D states c.tightStreams) :
    ∃ streams, resetStreams control c = .ok (true, { c with tightStreams := streams }) ∧
      InSync D (resetBelow control 4 states) streams := by
  have hnone : resetBelow control 0 states = states := funext fun i => if_neg fun hin => Nat.not_lt_zero _ hin.1
  rw [← hnone] at h
  obtain ⟨s₁, h₁, hsync₁⟩ := resetIfAsked_sync (n := 0) (by decide) h
  obtain ⟨s₂, h₂, hsync₂⟩ := resetIfAsked_sync (c := { c with tightStreams := s₁ }) (n := 1) (by decide) hsync₁
  obtain ⟨s₃, h₃, hsync₃⟩ := resetIfAsked_sync (c := { c with tightStreams := s₂ }) (n := 2) (by decide) hsync₂
  obtain ⟨s₄, h₄, hsync₄⟩ := resetIfAsked_sync (c := { c with tightStreams := s₃ }) (n := 3) (by decide) hsync₃
  have hr₁ : resetIfAsked control 0 c = .ok (true, { c with tightStreams := s₁ }) := h₁
  have hr₂ : resetIfAsked control 1 { c with tightStreams := s₁ } = .ok (true, { c with tightStreams := s₂ }) := h₂
  have hr₃ : resetIfAsked control 2 { c with tightStreams := s₂ } = .ok (true, { c with tightStreams := s₃ }) := h₃
  refine ⟨s₄, ?_, hsync₄⟩
  unfold resetStreams
  rw [bind_of_ok hr₁, if_neg (by decide), bind_of_ok hr₂, if_neg (by decide), bind_of_ok hr₃, if_neg (by decide)]
  exact h₄

/-- The stream of a rectangle, created if it has not been used. -/
theorem tightStream_sync (i : Fin 4) (h : InSync D states c.tightStreams) :
    ∃ zs streams, tightStream i c = .ok (some ⟨some zs⟩, { c with tightStreams := streams }) ∧ D.follows zs (states i) ∧
      ∀ j ≠ i, streams j = c.tightStreams j := by
  unfold tightStream
  rcases h i with ⟨hnone, hfresh⟩ | ⟨zs, hsome, hfollows⟩
  · obtain ⟨zs, hreset, hfollows⟩ := h.reset i
    refine ⟨zs, fun j => if j = i then some ⟨some zs⟩ else c.tightStreams j, ?_, ?_, fun j hj => if_neg hj⟩
    · rw [bind_of_ok (gets_apply _ _), hnone]
      simp only [hreset]
      exact bind_of_ok (modify_apply _ _)
    · rw [hfresh]
      exact hfollows
  · refine ⟨zs, c.tightStreams, ?_, hfollows, fun _ _ => rfl⟩
    rw [bind_of_ok (gets_apply _ _), hsome]
    rfl

end Streams

/-! ## Rectangles -/

section Rectangles

variable {D : Deflater E.zlib} {states states' : Fin 4 → D.State} {picture : Nat → Nat → Rgb} {data rest : List UInt8} {f : TightFilter}

/-- The client behind a Tight rectangle. -/
def afterTight (c : VncClient E) (picture : Nat → Nat → Rgb) (rest : List UInt8) (streams : Fin 4 → Option (InflateState E)) :
    VncClient E :=
  { c with buf := rest, work := c.work.drawn c.rect (colours picture), tightStreams := streams }

/-- The last lines of a rectangle. -/
theorem tightDrawn_apply {n : Nat} (hf : Undoes c.rect picture data f) (hin : Inside c) (hn : n ≤ c.buf.length)
    (hrest : c.buf.drop n = rest) :
    (do
      tightPixels c.rect f data
      consume n
      pure true : ClientM E Bool) c = .ok (true, afterTight c picture rest c.tightStreams) := by
  subst hrest
  have hdraws : tightPixels c.rect f data c = .ok ((), c.draw c.rect (colours picture)) :=
    eq_ok_of_wp (wp_mono (hf.draws rfl hin) fun _ _ h => ⟨rfl, h⟩)
  rw [bind_of_ok hdraws]
  exact bind_of_ok (consume_apply (by exact hn))

theorem tightPlain_apply (hf : Undoes c.rect picture data f) (hin : Inside c) (h : Front c.buf f.pos (data ++ rest)) :
    tightPlain c.rect f data.length c = .ok (true, afterTight c picture rest c.tightStreams) := by
  unfold tightPlain
  rw [need_enough h.le, bind_of_ok h.bytes]
  exact tightDrawn_apply hf hin h.le h.next.2

theorem tightCompressed_apply {stream : Fin 4} {segment length : List UInt8} {s' : D.State} (hf : Undoes c.rect picture data f)
    (hin : Inside c) (hsync : InSync D states c.tightStreams) (hdeflates : D.deflates (states stream) data segment s')
    (hlength : Compact segment.length length) (h : Front c.buf f.pos (length ++ (segment ++ rest))) :
    ∃ streams, tightCompressed c.rect f stream data.length c = .ok (true, afterTight c picture rest streams) ∧
      InSync D (Function.update states stream s') streams := by
  obtain ⟨zs, streams, hstream, hfollows, hsame⟩ := tightStream_sync stream hsync
  obtain ⟨hrc, hout, hfollows'⟩ := D.inflates zs _ data segment s' hfollows hdeflates
  have hsegment := h.next
  have hchunk : inflateExact zs segment data.length = ⟨true, (E.zlib.inflate zs segment data.length).stream, data⟩ := by
    unfold inflateExact
    simp [hrc, hout]
  refine ⟨fun j => if j = stream then some ⟨some (E.zlib.inflate zs segment data.length).stream⟩ else streams j, ?_, fun j => ?_⟩
  · unfold tightCompressed
    rw [bind_of_ok (compactLength_apply hlength h)]
    simp only
    rw [need_enough hsegment.le, bind_of_ok hstream]
    simp only
    rw [bind_of_ok (Front.bytes (c := { c with tightStreams := streams }) hsegment)]
    simp only [hchunk]
    rw [setStream, bind_of_ok (modify_apply _ _), if_neg (by decide)]
    exact tightDrawn_apply (c := { c with
      tightStreams := fun j => if j = stream then some ⟨some (E.zlib.inflate zs segment data.length).stream⟩ else streams j })
      hf hin hsegment.le hsegment.next.2
  · by_cases hj : j = stream
    · subst hj
      refine .inr ⟨_, if_pos rfl, ?_⟩
      rw [Function.update_self]
      exact hfollows'
    · rw [Function.update_of_ne hj]
      simp only [if_neg hj, hsame j hj]
      exact hsync j

theorem tightControl_toNat (resets : Fin 16) (stream : Fin 4) (header : List UInt8) :
    (tightControl resets stream header).toNat = resets.val + 16 * stream.val + if header = [] then 0 else 64 := by
  have hr := resets.isLt
  have hs := stream.isLt
  unfold tightControl
  split
  · exact UInt8.toNat_ofNat_of_lt' (show _ < 256 by omega)
  · exact UInt8.toNat_ofNat_of_lt' (show _ < 256 by omega)

/-- The low four bits are the resets whatever stands above them. -/
theorem low_bit (r k : Nat) {i : Nat} (hi : i < 4) : (r + 16 * k) / 2 ^ i % 2 = r / 2 ^ i % 2 := by
  have hcases : i = 0 ∨ i = 1 ∨ i = 2 ∨ i = 3 := by omega
  rcases hcases with rfl | rfl | rfl | rfl
  · omega
  · omega
  · omega
  · omega

theorem resetBelow_control (resets : Fin 16) (stream : Fin 4) (header : List UInt8) :
    resetBelow (tightControl resets stream header) 4 states = afterResets D resets states := by
  have habove : (tightControl resets stream header).toNat = resets.val + 16 * (stream.val + if header = [] then 0 else 4) := by
    rw [tightControl_toNat]
    split
    · omega
    · omega
  funext i
  unfold resetBelow afterResets
  rw [habove, low_bit _ _ i.isLt]
  exact if_congr (and_iff_right i.isLt) rfl rfl

theorem TightFilter.rowBytes_le (f : TightFilter) (w : Nat) : f.rowBytes w ≤ w * 3 := by
  unfold TightFilter.rowBytes
  split
  · split
    · omega
    · omega
  · exact Nat.le_refl _

/-- Behind the filter byte and the palette. -/
theorem tightFiltered_apply (stream : Fin 4) {sent : List UInt8} (hin : Inside c) (hwidth : c.rect.w < 2 ^ 16) (hfits : data.length < 2 ^ 31)
    (hf : Undoes c.rect picture data f) (hsync : InSync D states c.tightStreams) (h : Front c.buf f.pos (sent ++ rest))
    (hsent : (data.length < 12 ∧ sent = data ∧ states' = states) ∨
      ∃ segment length s', 12 ≤ data.length ∧ D.deflates (states stream) data segment s' ∧ Compact segment.length length ∧
        sent = length ++ segment ∧ states' = Function.update states stream s') :
    ∃ streams, tightFiltered (.ok f) stream c = .ok (true, afterTight c picture rest streams) ∧ InSync D states' streams := by
  have hrow : int32 (f.rowBytes c.rect.w) c = .ok (f.rowBytes c.rect.w, c) := by
    have hle := f.rowBytes_le c.rect.w
    exact int32_apply (by omega)
  have hsize : int32 (f.rowBytes c.rect.w * c.rect.h) c = .ok (data.length, c) := by
    rw [hf.size]
    exact int32_apply hfits
  have hread : tightFiltered (.ok f) stream c =
      (if data.length < 12 then tightPlain c.rect f data.length else tightCompressed c.rect f stream data.length) c := by
    unfold tightFiltered
    simp only
    rw [bind_of_ok (gets_apply _ _), bind_of_ok hrow, bind_of_ok hsize]
  rw [hread]
  rcases hsent with ⟨hsmall, rfl, rfl⟩ | ⟨segment, length, s', hlarge, hdeflates, hlength, rfl, rfl⟩
  · rw [if_pos hsmall]
    exact ⟨_, tightPlain_apply hf hin h, hsync⟩
  · rw [if_neg (by omega)]
    rw [List.append_assoc] at h
    exact tightCompressed_apply hf hin hsync hdeflates hlength h

/-- What stands behind the header, under either transport. -/
theorem TightSent.split {header encoding : List UInt8} (h : TightSent D states header data encoding states') :
    ∃ (resets : Fin 16) (stream : Fin 4) (sent : List UInt8),
      encoding = tightControl resets stream header :: (header ++ sent) ∧
      ((data.length < 12 ∧ sent = data ∧ states' = afterResets D resets states) ∨
        ∃ segment length s', 12 ≤ data.length ∧ D.deflates (afterResets D resets states stream) data segment s' ∧
          Compact segment.length length ∧ sent = length ++ segment ∧
          states' = Function.update (afterResets D resets states) stream s') := by
  cases h with
  | plain resets stream hsmall => exact ⟨resets, stream, _, rfl, .inl ⟨hsmall, rfl, rfl⟩⟩
  | compressed resets stream hlarge hdeflates hlength =>
    exact ⟨resets, stream, _, rfl, .inr ⟨_, _, _, hlarge, hdeflates, hlength, rfl, rfl⟩⟩

/-- What the client reads from the control byte. -/
theorem tightControl_fields (resets : Fin 16) (stream : Fin 4) (header : List UInt8) :
    (tightControl resets stream header).toNat / 16 < 8 ∧ (tightControl resets stream header).toNat / 16 % 4 = stream.val ∧
      ((tightControl resets stream header).toNat / 64 % 2 = 0 ↔ header = []) := by
  have hr := resets.isLt
  have hs := stream.isLt
  rw [tightControl_toNat]
  by_cases hheader : header = []
  · rw [if_pos hheader]
    exact ⟨by omega, by omega, iff_of_true (by omega) hheader⟩
  · rw [if_neg hheader]
    exact ⟨by omega, by omega, iff_of_false (by omega) hheader⟩

/-- Every basic encoding of a picture, from a client in step with the encoder: the rectangle becomes the picture, exactly the encoding
is consumed and the two are still in step. -/
theorem tight_undoes_encoder {header encoding : List UInt8} (D : Deflater E.zlib) {states states' : Fin 4 → D.State} (ht : Tiling c)
    (hsync : InSync D states c.tightStreams) (hcode : TightCode c.rect.w c.rect.h picture header data) (hfits : data.length < 2 ^ 31)
    (hsent : TightSent D states header data encoding states') (hbuf : c.buf = encoding ++ rest) :
    ∃ streams, stepTight c = .ok (true, afterTight c picture rest streams) ∧ InSync D states' streams := by
  obtain ⟨resets, stream, sent, rfl, htransport⟩ := hsent.split
  obtain ⟨hkind, hstream, hcontrol⟩ := tightControl_fields resets stream header
  have hfront : Front c.buf 0 ([tightControl resets stream header] ++ (header ++ (sent ++ rest))) := by
    have hlayout : c.buf = [tightControl resets stream header] ++ (header ++ (sent ++ rest)) := by
      rw [hbuf, List.cons_append, List.append_assoc, List.singleton_append]
    exact hlayout ▸ Front.start c.buf
  have hone : 1 ≤ c.buf.length := hfront.le
  obtain ⟨streams, hresets, hreset⟩ := resetStreams_sync (tightControl resets stream header) hsync
  rw [resetBelow_control] at hreset
  have hbehind : Front c.buf 1 (header ++ (sent ++ rest)) := hfront.next
  obtain ⟨f, hfilter, hpos, hundoes⟩ := hcode.filter (c := { c with tightStreams := streams }) hfits hcontrol hbehind
  have hdata : Front c.buf f.pos (sent ++ rest) := by
    rw [hpos]
    exact hbehind.next
  obtain ⟨streams', hfiltered, hsync'⟩ := tightFiltered_apply (c := { c with tightStreams := streams }) stream
    ht.inside ht.ok.width_lt hfits hundoes hreset hdata htransport
  have hindex : (⟨(tightControl resets stream header).toNat / 16 % 4, Nat.mod_lt _ (by decide)⟩ : Fin 4) = stream := Fin.ext hstream
  have hbasic : tightKind (tightControl resets stream header) = (tightBasic (tightControl resets stream header) : ClientM E Bool) := by
    unfold tightKind
    simp only
    rw [if_neg (by omega), if_neg (by omega), if_neg (by omega)]
  refine ⟨streams', ?_, hsync'⟩
  unfold stepTight
  rw [need_enough hone, bind_of_ok hfront.byte, bind_of_ok hresets, if_pos rfl, hbasic]
  unfold tightBasic
  rw [bind_of_ok hfilter]
  simp only [hindex]
  exact hfiltered

/-- Before the first rectangle nothing has been sent on any stream. -/
theorem inSync_fresh (D : Deflater E.zlib) : InSync D (fun _ => D.fresh) (fun _ => none) := fun _ => .inl ⟨rfl, rfl⟩

end Rectangles

/-! ## A recorded segment -/

/-- zlib on streams of one segment that is known. -/
def Zlib.recorded (segment data : List UInt8) : Zlib where
  Stream := Bool
  inflateInit := some false
  inflateReset _ := some false
  inflate s input n :=
    if s = false ∧ input = segment ∧ n = data.length then ⟨.ok, true, [], data⟩ else ⟨.error, s, input, []⟩
  calls s _ := if s then 0 else 1
  output_le s input n := by
    split
    next h => rw [h.2.2]
    next => exact Nat.zero_le _
  progress s input n _ h := by
    by_cases hknown : s = false ∧ input = segment ∧ n = data.length
    · rw [if_pos hknown, if_pos rfl, if_neg (by rw [hknown.1]; decide)]
      exact Nat.zero_lt_one
    · rw [if_neg hknown] at h
      exact absurd rfl h.1
  init_reset _ h := h
  reset_reset _ _ h := h

def Env.recorded (segment data : List UInt8) : Env := { Env.bare with zlib := .recorded segment data }

def Deflater.recorded (segment data : List UInt8) : Deflater (Zlib.recorded segment data) where
  State := Bool
  fresh := false
  deflates s d sent s' := s = false ∧ d = data ∧ sent = segment ∧ s' = true
  follows zs s := zs = s
  init := ⟨false, rfl, rfl⟩
  reset _ _ _ := ⟨false, rfl, rfl⟩
  inflates := by
    rintro zs s d sent s' rfl ⟨rfl, rfl, rfl, rfl⟩
    simp [Zlib.recorded]

/-- Twelve zero bytes, deflated and flushed. -/
def twelveZeros : List UInt8 := [120, 156, 98, 96, 64, 0, 0, 0, 0, 0, 255, 255]

/-- A client in front of four black pixels on the first stream. -/
def tightClient : VncClient (.recorded twelveZeros (List.replicate 12 0)) :=
  { VncClient.connecting (.recorded twelveZeros (List.replicate 12 0)) none [] "" with
    stage := .running
    work := .black 2 2
    fb := .black 2 2
    inRect := true
    rect := ⟨0, 0, 2, 2⟩
    encoding := encTight
    buf := 0 :: 12 :: twelveZeros }

theorem tightClient_tiling : Tiling tightClient where
  live := ⟨rfl, rfl, rfl, ⟨by decide, by decide, by decide, by decide, rfl, rfl⟩⟩
  ok := ⟨by decide, by decide, .inr (.inr (by decide)), by decide⟩
  inside := ⟨by decide, by decide⟩

theorem tight_undoes_encoder_black : ∃ streams,
    stepTight tightClient = .ok (true, afterTight tightClient (fun _ _ => ⟨0, 0, 0⟩) [] streams) ∧
      InSync (Deflater.recorded twelveZeros (List.replicate 12 0)) (Function.update (fun _ => false) 0 true) streams := by
  have hcode : TightCode 2 2 (fun _ _ => ⟨0, 0, 0⟩) [] (List.replicate 12 0) := .copy [] (.inl rfl)
  have hnone : afterResets (Deflater.recorded twelveZeros (List.replicate 12 0)) 0 (fun _ => false) = fun _ => false :=
    funext fun _ => ite_self _
  have hlength : Compact twelveZeros.length [12] := .one 12 (by decide)
  have hsent := @TightSent.compressed _ (Deflater.recorded twelveZeros (List.replicate 12 0)) (fun _ => false) [] (List.replicate 12 0)
    0 0 (by decide) twelveZeros [12] true ⟨rfl, rfl, rfl, rfl⟩ hlength
  rw [hnone] at hsent
  exact tight_undoes_encoder _ tightClient_tiling (inSync_fresh _) hcode (by decide) hsent rfl

end LvdTerm.Vnc
