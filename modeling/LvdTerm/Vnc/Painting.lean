import LvdTerm.Vnc.DecodeFrame

/-!
# VNC client: what drawing leaves

Loops over rows and columns that set one pixel after the other leave the image with the whole
rectangle drawn (`Image.drawn`). The rules are for actions that may look at anything but `m_work`.
-/
namespace LvdTerm.Vnc

open Lib Lib.Action

variable {E : Env} {F : Fault → Prop} {c : VncClient E}

/-! ## Rectangles in an image -/

/-- `i` with a rectangle drawn into it; `f` is given positions inside the rectangle. -/
def Image.drawn (i : Image) (r : Rect) (f : Nat → Nat → QRgb) : Image :=
  { i with pixel := fun x y => if r.Mem x y then f (x - r.x) (y - r.y) else i.pixel x y }

@[simp] theorem Image.drawn_width (i : Image) (r : Rect) (f : Nat → Nat → QRgb) : (i.drawn r f).width = i.width := rfl

@[simp] theorem Image.drawn_height (i : Image) (r : Rect) (f : Nat → Nat → QRgb) : (i.drawn r f).height = i.height := rfl

theorem Image.drawn_inside (i : Image) (r : Rect) (f : Nat → Nat → QRgb) {col row : Nat} (hcol : col < r.w) (hrow : row < r.h) :
    (i.drawn r f).pixel (r.x + col) (r.y + row) = f col row := by
  have hmem : r.Mem (r.x + col) (r.y + row) := ⟨by omega, by omega, by omega, by omega⟩
  show (if r.Mem (r.x + col) (r.y + row) then _ else _) = _
  rw [if_pos hmem, Nat.add_sub_cancel_left, Nat.add_sub_cancel_left]

theorem Image.drawn_outside (i : Image) (r : Rect) (f : Nat → Nat → QRgb) {x y : Nat} (h : ¬ r.Mem x y) :
    (i.drawn r f).pixel x y = i.pixel x y :=
  if_neg h

theorem Image.ext_pixel {i j : Image} (hw : i.width = j.width) (hh : i.height = j.height) (hp : ∀ x y, i.pixel x y = j.pixel x y) :
    i = j := by
  obtain ⟨w, h, p⟩ := i
  obtain ⟨w', h', p'⟩ := j
  obtain rfl : p = p' := funext fun x => funext fun y => hp x y
  cases hw
  cases hh
  rfl

/-- Nothing is drawn in an empty rectangle. -/
theorem Image.drawn_empty (i : Image) {r : Rect} (f : Nat → Nat → QRgb) (h : r.w = 0 ∨ r.h = 0) : i.drawn r f = i :=
  Image.ext_pixel rfl rfl fun x y => Image.drawn_outside i r f fun hmem => by
    unfold Rect.Mem at hmem
    omega

theorem Image.drawn_congr (i : Image) {r : Rect} {f g : Nat → Nat → QRgb} (h : ∀ col < r.w, ∀ row < r.h, f col row = g col row) :
    i.drawn r f = i.drawn r g := by
  refine Image.ext_pixel rfl rfl fun x y => ?_
  show (if r.Mem x y then _ else _) = if r.Mem x y then _ else _
  split
  next hmem =>
    obtain ⟨h1, h2, h3, h4⟩ := hmem
    exact h _ (by omega) _ (by omega)
  next => rfl

/-- One more pixel of a row. -/
theorem Image.drawn_col (i : Image) (x y n : Nat) (f : Nat → Nat → QRgb) :
    (i.drawn ⟨x, y, n, 1⟩ f).set (x + n) y (f n 0) = i.drawn ⟨x, y, n + 1, 1⟩ f := by
  refine Image.ext_pixel rfl rfl fun x' y' => ?_
  show (if x' = x + n ∧ y' = y then f n 0 else if Rect.Mem ⟨x, y, n, 1⟩ x' y' then f (x' - x) (y' - y) else i.pixel x' y') =
    if Rect.Mem ⟨x, y, n + 1, 1⟩ x' y' then f (x' - x) (y' - y) else i.pixel x' y'
  by_cases hhere : x' = x + n ∧ y' = y
  · obtain ⟨rfl, rfl⟩ := hhere
    have hmem : Rect.Mem ⟨x, y', n + 1, 1⟩ (x + n) y' := by
      unfold Rect.Mem
      simp only
      omega
    rw [if_pos ⟨rfl, rfl⟩, if_pos hmem, Nat.add_sub_cancel_left, Nat.sub_self]
  · rw [if_neg hhere]
    refine if_congr ?_ rfl rfl
    unfold Rect.Mem
    simp only
    omega

/-- One more row. -/
theorem Image.drawn_row (i : Image) (x y w n : Nat) (f : Nat → Nat → QRgb) :
    (i.drawn ⟨x, y, w, n⟩ f).drawn ⟨x, y + n, w, 1⟩ (fun col _ => f col n) = i.drawn ⟨x, y, w, n + 1⟩ f := by
  refine Image.ext_pixel rfl rfl fun x' y' => ?_
  show (if Rect.Mem ⟨x, y + n, w, 1⟩ x' y' then f (x' - x) n else if Rect.Mem ⟨x, y, w, n⟩ x' y' then f (x' - x) (y' - y) else i.pixel x' y') =
    if Rect.Mem ⟨x, y, w, n + 1⟩ x' y' then f (x' - x) (y' - y) else i.pixel x' y'
  by_cases hhere : Rect.Mem ⟨x, y + n, w, 1⟩ x' y'
  · obtain ⟨h1, h2, h3, h4⟩ := hhere
    simp only at h1 h2 h3 h4
    obtain rfl : y' = y + n := by omega
    rw [if_pos ⟨h1, h2, h3, h4⟩, if_pos ⟨h1, h2, by simp only; omega, by simp only; omega⟩, Nat.add_sub_cancel_left]
  · rw [if_neg hhere]
    refine if_congr ?_ rfl rfl
    unfold Rect.Mem at hhere ⊢
    simp only at hhere ⊢
    omega

/-! ## Loops -/

/-- Only `m_work` differs, by a rectangle that has been drawn. -/
def VncClient.draw (c : VncClient E) (r : Rect) (f : Nat → Nat → QRgb) : VncClient E := { c with work := c.work.drawn r f }

theorem painted_draw (c : VncClient E) (r : Rect) (f : Nat → Nat → QRgb) : Painted c (c.draw r f) := ⟨_, rfl⟩

theorem draw_empty (c : VncClient E) {r : Rect} (f : Nat → Nat → QRgb) (h : r.w = 0 ∨ r.h = 0) : c.draw r f = c := by
  unfold VncClient.draw
  rw [Image.drawn_empty _ _ h]

theorem wp_setPixel_eq {x y : Nat} {color : QRgb} (hx : x < c.work.width) (hy : y < c.work.height) :
    wp F (setPixel x y color) (fun _ c' => c' = { c with work := c.work.set x y color }) c := by
  unfold wp setPixel
  rw [if_pos ⟨hx, hy⟩]

/-- The pixels of one row. -/
theorem wp_drawCols {x y w : Nat} {pixel : Nat → ClientM E Unit} {f : Nat → Nat → QRgb}
    (hpixel : ∀ col c', col < w → Painted c c' →
      wp F (pixel col) (fun _ c'' => c'' = { c' with work := c'.work.set (x + col) y (f col 0) }) c') :
    wp F (forRange w pixel) (fun _ c' => c' = c.draw ⟨x, y, w, 1⟩ f) c := by
  refine wp_forRange (I := fun n c' => c' = c.draw ⟨x, y, n, 1⟩ f) (fun col c' hcol hc' => ?_) (draw_empty c f (.inl rfl)).symm
  subst hc'
  refine wp_mono (hpixel col _ hcol (painted_draw c _ f)) fun _ c'' h => ?_
  rw [h]
  exact congrArg (fun i => { c with work := i }) (c.work.drawn_col x y col f)

/-- The rows of a rectangle. -/
theorem wp_drawRows {r : Rect} {row : Nat → ClientM E Unit} {f : Nat → Nat → QRgb}
    (hrow : ∀ n c', n < r.h → Painted c c' →
      wp F (row n) (fun _ c'' => c'' = c'.draw ⟨r.x, r.y + n, r.w, 1⟩ (fun col _ => f col n)) c') :
    wp F (forRange r.h row) (fun _ c' => c' = c.draw r f) c := by
  refine wp_forRange (I := fun n c' => c' = c.draw ⟨r.x, r.y, r.w, n⟩ f) (fun n c' hn hc' => ?_) (draw_empty c f (.inr rfl)).symm
  subst hc'
  refine wp_mono (hrow n _ hn (painted_draw c _ f)) fun _ c'' h => ?_
  rw [h]
  exact congrArg (fun i => { c with work := i }) (c.work.drawn_row r.x r.y r.w n f)

/-- Pixels set one after the other, row by row. -/
theorem wp_drawPixels {r : Rect} {pixel : Nat → Nat → ClientM E Unit} {f : Nat → Nat → QRgb}
    (hpixel : ∀ row col c', row < r.h → col < r.w → Painted c c' →
      wp F (pixel row col) (fun _ c'' => c'' = { c' with work := c'.work.set (r.x + col) (r.y + row) (f col row) }) c') :
    wp F (forRange r.h fun row => forRange r.w fun col => pixel row col) (fun _ c' => c' = c.draw r f) c :=
  wp_drawRows fun row _ hrow hp => wp_drawCols fun col c₂ hcol hp₂ => hpixel row col c₂ hrow hcol (hp.trans hp₂)

/-- A pixel of an image that holds the rectangle. -/
theorem wp_setPixel_in {c' : VncClient E} {r : Rect} {row col : Nat} {color : QRgb} (hin : c.work.Holds r.x r.y r.w r.h)
    (hp : Painted c c') (hrow : row < r.h) (hcol : col < r.w) :
    wp F (setPixel (r.x + col) (r.y + row) color)
      (fun _ c'' => c'' = { c' with work := c'.work.set (r.x + col) (r.y + row) color }) c' := by
  obtain ⟨hx, hy⟩ := hin
  exact wp_setPixel_eq (by rw [hp.width]; omega) (by rw [hp.height]; omega)

theorem wp_fillRect_eq {x y w h : Nat} {color : QRgb} (hin : c.work.Holds x y w h) :
    wp F (fillRect x y w h color) (fun _ c' => c' = c.draw ⟨x, y, w, h⟩ fun _ _ => color) c :=
  wp_drawPixels (r := ⟨x, y, w, h⟩) fun _ _ _ hrow hcol hp => wp_setPixel_in (r := ⟨x, y, w, h⟩) hin hp hrow hcol

theorem wp_pasteRows {x y : Nat} {copy : Image} (hin : c.work.Holds x y copy.width copy.height) :
    wp F (pasteRows x y copy) (fun _ c' => c' = c.draw ⟨x, y, copy.width, copy.height⟩ copy.pixel) c :=
  wp_drawPixels (r := ⟨x, y, copy.width, copy.height⟩) fun _ _ _ hrow hcol hp =>
    wp_setPixel_in (r := ⟨x, y, copy.width, copy.height⟩) hin hp hrow hcol

/-! ## Wire pixels -/

/-- The colour of the wire pixel `off` bytes into the data. -/
def wireColor (d : List UInt8) (off : Nat) : QRgb :=
  (0xff000000 : UInt32) ||| ((d.getD (off + 3) 0).toUInt32 <<< 24) ||| ((d.getD (off + 2) 0).toUInt32 <<< 16) |||
    ((d.getD (off + 1) 0).toUInt32 <<< 8) ||| (d.getD off 0).toUInt32

theorem pixelAt_apply {off : Nat} (h : off + 4 ≤ c.buf.length) : pixelAt off c = .ok (wireColor c.buf off, c) := by
  unfold pixelAt
  rw [bind_of_ok (u8_apply (by omega)), bind_of_ok (u8_apply (by omega)), bind_of_ok (u8_apply (by omega)),
    bind_of_ok (u8_apply (by omega))]
  rfl

/-- A pixel that is read off the data and set. -/
theorem wp_wirePixel {c' : VncClient E} {r : Rect} {off row col : Nat} (hin : c.work.Holds r.x r.y r.w r.h) (hp : Painted c c')
    (hrow : row < r.h) (hcol : col < r.w) (hoff : off + 4 ≤ c.buf.length) :
    wp F (do
      let color ← pixelAt off
      setPixel (r.x + col) (r.y + row) color)
      (fun _ c'' => c'' = { c' with work := c'.work.set (r.x + col) (r.y + row) (wireColor c.buf off) }) c' := by
  have hread : pixelAt off c' = .ok (wireColor c.buf off, c') := by rw [pixelAt_apply (by rw [hp.buf]; exact hoff), hp.buf]
  unfold wp
  rw [bind_of_ok hread]
  exact wp_setPixel_in hin hp hrow hcol

theorem wp_rawRows {x y w h pos : Nat} (hin : c.work.Holds x y w h) (hlen : pos + w * h * 4 ≤ c.buf.length) :
    wp F (rawRows x y w h pos)
      (fun _ c' => c' = c.draw ⟨x, y, w, h⟩ fun col row => wireColor c.buf (pos + (row * w + col) * 4)) c :=
  wp_drawPixels (r := ⟨x, y, w, h⟩) fun row col _ hrow hcol hp => by
    have hpix : row * w + col + 1 ≤ w * h := pixel_lt hrow hcol
    exact wp_wirePixel (r := ⟨x, y, w, h⟩) hin hp hrow hcol (by omega)

/-! ## Reading ahead -/

/-- The data from `pos` on. -/
def Front (data : List UInt8) (pos : Nat) (ahead : List UInt8) : Prop := pos ≤ data.length ∧ data.drop pos = ahead

theorem Front.start (data : List UInt8) : Front data 0 data := ⟨Nat.zero_le _, rfl⟩

section Front

variable {data x y : List UInt8} {pos : Nat}

theorem Front.le (h : Front data pos (x ++ y)) : pos + x.length ≤ data.length := by
  have hlen := congrArg List.length h.2
  rw [List.length_drop, List.length_append] at hlen
  have := h.1
  omega

theorem Front.next (h : Front data pos (x ++ y)) : Front data (pos + x.length) y :=
  ⟨h.le, by rw [← List.drop_drop, h.2, List.drop_left]⟩

/-- One of several things that lie one after the other. -/
theorem Front.item {α : Type} {f : α → List UInt8} {xs : List α} (h : Front data pos (xs.flatMap f ++ y)) {i : Nat}
    (hi : i < xs.length) :
    Front data (pos + ((xs.take i).flatMap f).length) (f xs[i] ++ ((xs.drop (i + 1)).flatMap f ++ y)) := by
  have hsplit : xs.flatMap f ++ y = (xs.take i).flatMap f ++ (f xs[i] ++ ((xs.drop (i + 1)).flatMap f ++ y)) := by
    rw [← List.append_assoc, ← List.append_assoc, ← List.flatMap_singleton f xs[i], ← List.flatMap_append, ← List.flatMap_append,
      List.take_append_getElem, List.take_append_drop]
  rw [hsplit] at h
  exact h.next

theorem Front.getD (h : Front data pos (x ++ y)) {i : Nat} (hi : i < x.length) : data.getD (pos + i) 0 = x.getD i 0 := by
  have hget : (data.drop pos)[i]? = x[i]? := by rw [h.2, List.getElem?_append_left hi]
  rw [List.getElem?_drop] at hget
  rw [List.getD_eq_getElem?_getD, List.getD_eq_getElem?_getD, hget]

theorem Front.byte {b : UInt8} (h : Front c.buf pos (b :: y)) : u8 pos c = .ok (b, c) := by
  have hfront : Front c.buf pos ([b] ++ y) := h
  have hle := hfront.le
  rw [u8_apply hle]
  exact congrArg (fun b => Except.ok (b, c)) (hfront.getD (i := 0) Nat.zero_lt_one)

theorem Front.bytes (h : Front c.buf pos (x ++ y)) : bytes pos x.length c = .ok (x, c) := by
  rw [bytes_apply h.le, h.2, List.take_left]

end Front

end LvdTerm.Vnc
