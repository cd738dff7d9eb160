import LvdTerm.Lib.Arrival
import LvdTerm.Vnc.HextileFormat
import LvdTerm.Vnc.RectFrame

/-!
# VNC client: Hextile rectangles against the format

Tile by tile the decoder uses up what an encoder wrote and leaves the picture of the reference
decoder, however the data arrives. The loop over the tiles looks at the height alone: a rectangle
without columns has no tiles, and the decoder still asks for one.
-/
namespace LvdTerm.Vnc

open Lib Lib.Action Lib.Inbox

variable {E : Env} {c c' : VncClient E}

/-! ## Reading -/

section Reading

variable {pos : Nat} {data y : List UInt8}

/-- What the unused byte is shifted into is set anyway. -/
theorem alpha_or (b : UInt8) : (0xff000000 : UInt32) ||| (b.toUInt32 <<< 24) = 0xff000000 := by
  have hall : ∀ n < 256, (0xff000000 : UInt32) ||| ((UInt8.ofNat n).toUInt32 <<< 24) = 0xff000000 := by decide +kernel
  simpa using hall b.toNat b.toNat_lt

theorem Front.wireColor {p : WirePixel} (h : Front data pos (p.bytes ++ y)) : wireColor data pos = p.color := by
  have h0 : data.getD pos 0 = p.rgb.b := h.getD (i := 0) (by simp)
  have h1 : data.getD (pos + 1) 0 = p.rgb.g := h.getD (i := 1) (by simp)
  have h2 : data.getD (pos + 2) 0 = p.rgb.r := h.getD (i := 2) (by simp)
  have h3 : data.getD (pos + 3) 0 = p.pad := h.getD (i := 3) (by simp)
  unfold Vnc.wireColor
  rw [h0, h1, h2, h3, alpha_or]
  rfl

theorem Front.pixel {p : WirePixel} (h : Front c.buf pos (p.bytes ++ y)) : pixelAt pos c = .ok (p.color, c) := by
  rw [pixelAt_apply h.le, h.wireColor]

/-- The pixel `i` places on. -/
theorem Front.wirePixels {pixels : List WirePixel} (h : Front data pos (pixels.flatMap WirePixel.bytes ++ y)) {i : Nat}
    (hi : i < pixels.length) : Vnc.wireColor data (pos + i * 4) = colourOr 0 pixels[i]? := by
  induction pixels generalizing pos i with
  | nil => cases hi
  | cons p pixels ih =>
    rw [List.flatMap_cons, List.append_assoc] at h
    cases i with
    | zero =>
      rw [Nat.zero_mul, Nat.add_zero]
      exact h.wireColor
    | succ i =>
      have hlater := ih h.next (i := i) (Nat.lt_of_succ_lt_succ hi)
      rw [WirePixel.bytes_length] at hlater
      rw [List.getElem?_cons_succ, ← hlater]
      exact congrArg (Vnc.wireColor data) (by omega)

theorem flatMap_wire_length (pixels : List WirePixel) : (pixels.flatMap WirePixel.bytes).length = pixels.length * 4 := by
  induction pixels with
  | nil => rfl
  | cons p pixels ih => rw [List.flatMap_cons, List.length_append, ih, WirePixel.bytes_length, List.length_cons, Nat.succ_mul, Nat.add_comm]

theorem hextileColour_apply {specified : Bool} {old : QRgb} {colour : Option WirePixel} (hspecified : colour.isSome = specified)
    (h : Front c.buf pos (colourBytes colour ++ y)) :
    hextileColour specified pos old c = .ok (some (colourOr old colour, pos + (colourBytes colour).length), c) := by
  subst hspecified
  cases colour with
  | none => rfl
  | some p =>
    have hlen : pos + 4 ≤ c.buf.length := h.le
    have hpixel : pixelAt pos c = .ok (p.color, c) := h.pixel
    unfold hextileColour peek avail
    rw [if_pos (by rfl), bind_of_ok (gets_apply _ _), if_neg (by omega), bind_of_ok hpixel]
    rfl

theorem hextileCount_apply {sub : UInt8} {subrects : List HexSubrect} (hlen : subrects.length < 256)
    (hnone : hexAnySubrects sub = false → subrects = []) (h : Front c.buf pos (countBytes sub subrects ++ y)) :
    hextileCount (hexAnySubrects sub) pos c = .ok (some (subrects.length, pos + (countBytes sub subrects).length), c) := by
  unfold countBytes at h ⊢
  cases hany : hexAnySubrects sub with
  | false =>
    rw [hnone hany]
    rfl
  | true =>
    rw [hany, if_pos rfl] at h
    have hle : pos + 1 ≤ c.buf.length := h.le
    have hcount : u8 pos c = .ok (UInt8.ofNat subrects.length, c) := h.byte
    unfold hextileCount peek avail
    rw [if_pos rfl, bind_of_ok (gets_apply _ _), if_neg (by omega), bind_of_ok hcount, UInt8.toNat_ofNat_of_lt' hlen]
    rfl

end Reading

/-! ## Subrectangles -/

section Tiles

variable {t : Rect} {pos : Nat} {y : List UInt8}

/-- An image with subrectangles drawn over it has the size it had. -/
theorem foldl_draw_size (fg : QRgb) (i : Image) (subrects : List HexSubrect) :
    (subrects.foldl (HexSubrect.draw t fg) i).width = i.width ∧ (subrects.foldl (HexSubrect.draw t fg) i).height = i.height := by
  induction subrects generalizing i with
  | nil => exact ⟨rfl, rfl⟩
  | cons s subrects ih => exact ih _

theorem eq_ok_of_wp {α : Type} {m : ClientM E α} {a : α} (h : wp (fun _ => False) m (fun b c₁ => b = a ∧ c₁ = c') c) :
    m c = .ok (a, c') := by
  unfold wp at h
  split at h
  next heq =>
    obtain ⟨rfl, rfl⟩ := h
    exact heq
  next => exact h.elim

/-- A position of two digits. -/
theorem hex_digits {a b : Nat} (ha : a < 16) (hb : b < 16) :
    (UInt8.ofNat (a * 16 + b)).toNat / 16 = a ∧ (UInt8.ofNat (a * 16 + b)).toNat % 16 = b := by
  rw [UInt8.toNat_ofNat_of_lt' (show a * 16 + b < 256 by omega)]
  omega

theorem hextileSubrect_apply {s : HexSubrect} {coloured : Bool} (fg : QRgb) (hs : s.Fits coloured t.w t.h)
    (ht : t.w ≤ 16 ∧ t.h ≤ 16) (hin : c.work.Holds t.x t.y t.w t.h) (h : Front c.buf pos (s.bytes ++ y)) :
    hextileSubrect t fg coloured (some pos) c =
      .ok (some (pos + s.bytes.length), { c with work := HexSubrect.draw t fg c.work s }) := by
  obtain ⟨hcolour, ⟨hw, hh⟩, hx, hy⟩ := hs
  obtain ⟨hix, hiy⟩ := hin
  unfold HexSubrect.bytes at h
  rw [List.append_assoc] at h
  have hcorner := h.next
  have hxy : u8 (pos + (colourBytes s.colour).length) c = .ok (UInt8.ofNat (s.rect.x * 16 + s.rect.y), c) := hcorner.byte
  have hwh : u8 (pos + (colourBytes s.colour).length + 1) c = .ok (UInt8.ofNat ((s.rect.w - 1) * 16 + (s.rect.h - 1)), c) :=
    (Front.next (x := [_]) hcorner).byte
  obtain ⟨hdx, hdy⟩ := hex_digits (show s.rect.x < 16 by omega) (show s.rect.y < 16 by omega)
  obtain ⟨hdw, hdh⟩ := hex_digits (show s.rect.w - 1 < 16 by omega) (show s.rect.h - 1 < 16 by omega)
  have hfill : fillRect (t.x + s.rect.x) (t.y + s.rect.y) s.rect.w s.rect.h (colourOr fg s.colour) c =
      .ok ((), { c with work := HexSubrect.draw t fg c.work s }) :=
    eq_ok_of_wp (wp_mono (wp_fillRect_eq ⟨by omega, by omega⟩) fun _ _ heq => ⟨rfl, heq⟩)
  -- the subrectangle behind its colour
  have hrest : (do
      let xy ← u8 (pos + (colourBytes s.colour).length)
      let wh ← u8 (pos + (colourBytes s.colour).length + 1)
      if xy.toNat / 16 + (wh.toNat / 16 + 1) > t.w ∨ xy.toNat % 16 + (wh.toNat % 16 + 1) > t.h then
        fail "The server sent an invalid Hextile subrectangle"
        pure none
      else
        fillRect (t.x + xy.toNat / 16) (t.y + xy.toNat % 16) (wh.toNat / 16 + 1) (wh.toNat % 16 + 1) (colourOr fg s.colour)
        pure (some (pos + (colourBytes s.colour).length + 2)) : ClientM E (Option Nat)) c =
      .ok (some (pos + s.bytes.length), { c with work := HexSubrect.draw t fg c.work s }) := by
    rw [bind_of_ok hxy, bind_of_ok hwh, hdx, hdy, hdw, hdh, Nat.sub_add_cancel hw, Nat.sub_add_cancel hh,
      if_neg (by omega), bind_of_ok hfill]
    unfold HexSubrect.bytes
    rw [List.length_append, ← Nat.add_assoc]
    rfl
  unfold hextileSubrect
  cases hc : s.colour with
  | none =>
    rw [hc] at hcolour hrest
    obtain rfl : false = coloured := hcolour
    exact hrest
  | some p =>
    rw [hc] at hcolour hrest h
    obtain rfl : true = coloured := hcolour
    have hpixel : pixelAt pos c = .ok (p.color, c) := Front.pixel h
    simp only [if_true]
    rw [bind_of_ok hpixel]
    exact hrest

theorem flatMap_subrect_length {subrects : List HexSubrect} {coloured : Bool} {w h : Nat} (hs : ∀ s ∈ subrects, s.Fits coloured w h) :
    (subrects.flatMap HexSubrect.bytes).length = subrects.length * if coloured then 6 else 2 := by
  induction subrects with
  | nil => rw [List.length_nil, Nat.zero_mul, List.flatMap_nil, List.length_nil]
  | cons s subrects ih =>
    have hone : s.bytes.length = if coloured then 6 else 2 := by
      have hcolour := (hs s List.mem_cons_self).colour
      subst hcolour
      unfold HexSubrect.bytes
      cases s.colour <;> rfl
    rw [List.flatMap_cons, List.length_append, hone, ih fun s hmem => hs s (List.mem_cons_of_mem _ hmem), List.length_cons,
      Nat.succ_mul, Nat.add_comm]

theorem hextileSubrects_apply {subrects : List HexSubrect} {coloured : Bool} (fg : QRgb)
    (hs : ∀ s ∈ subrects, s.Fits coloured t.w t.h) (ht : t.w ≤ 16 ∧ t.h ≤ 16) (hin : c.work.Holds t.x t.y t.w t.h)
    (h : Front c.buf pos (subrects.flatMap HexSubrect.bytes ++ y)) :
    foldRange (fun _ => hextileSubrect t fg coloured) subrects.length (some pos) c =
      .ok (some (pos + (subrects.flatMap HexSubrect.bytes).length),
        { c with work := subrects.foldl (HexSubrect.draw t fg) c.work }) := by
  -- after `i` rounds, `i` subrectangles have been drawn
  have hloop : wp (fun _ => False) (foldRange (fun _ => hextileSubrect t fg coloured) subrects.length (some pos))
      (fun acc c' => acc = some (pos + ((subrects.take subrects.length).flatMap HexSubrect.bytes).length) ∧
        c' = { c with work := (subrects.take subrects.length).foldl (HexSubrect.draw t fg) c.work }) c := by
    refine wp_foldRange (I := fun i acc c' => acc = some (pos + ((subrects.take i).flatMap HexSubrect.bytes).length) ∧
      c' = { c with work := (subrects.take i).foldl (HexSubrect.draw t fg) c.work }) (fun i acc c' hi hacc => ?_) ⟨rfl, rfl⟩
    obtain ⟨rfl, rfl⟩ := hacc
    have hsize := foldl_draw_size (t := t) fg c.work (subrects.take i)
    have hone := hextileSubrect_apply (c := { c with work := (subrects.take i).foldl (HexSubrect.draw t fg) c.work }) fg
      (hs _ (List.getElem_mem hi)) ht (by
        unfold Image.Holds
        rw [hsize.1, hsize.2]
        exact hin) (h.item hi)
    unfold wp
    rw [hone]
    refine ⟨?_, ?_⟩
    · rw [← List.take_append_getElem hi, List.flatMap_append, List.length_append, List.flatMap_singleton, Nat.add_assoc]
    · rw [← List.take_append_getElem hi, List.foldl_append]
      rfl
  rw [List.take_length] at hloop
  exact eq_ok_of_wp hloop

/-! ## Tiles -/

/-- The client behind a tile. -/
def afterTile (c : VncClient E) (s : HexState) (rest : List UInt8) : VncClient E :=
  { c with buf := rest, work := s.image, hexBg := s.bg, hexFg := s.fg }

/-- The picture so far. -/
def hexState (c : VncClient E) : HexState := ⟨c.work, c.hexBg, c.hexFg⟩

/-- The last lines of a tile. -/
theorem consume_tile {n : Nat} {rest : List UInt8} (s : HexState) (hn : n ≤ c.buf.length) (hrest : c.buf.drop n = rest) :
    (do
      consume n
      pure true : ClientM E Bool) { c with work := s.image, hexBg := s.bg, hexFg := s.fg } = .ok (true, afterTile c s rest) := by
  subst hrest
  exact bind_of_ok (consume_apply (by exact hn))

theorem hextileCommit_apply {subrects : List HexSubrect} {coloured : Bool} {bg fg : QRgb}
    (hs : ∀ s ∈ subrects, s.Fits coloured t.w t.h) (ht : t.w ≤ 16 ∧ t.h ≤ 16) (hin : c.work.Holds t.x t.y t.w t.h)
    (h : Front c.buf pos (subrects.flatMap HexSubrect.bytes ++ y)) :
    hextileCommit t bg fg coloured subrects.length pos c =
      .ok (true, afterTile c ⟨subrects.foldl (HexSubrect.draw t fg) (c.work.drawn t fun _ _ => bg), bg, fg⟩ y) := by
  have hfill : fillRect t.x t.y t.w t.h bg { c with hexBg := bg, hexFg := fg } =
      .ok ((), { c with hexBg := bg, hexFg := fg, work := c.work.drawn t fun _ _ => bg }) :=
    eq_ok_of_wp (wp_mono (wp_fillRect_eq hin) fun _ _ heq => ⟨rfl, heq⟩)
  have hsubrects := hextileSubrects_apply (c := { c with hexBg := bg, hexFg := fg, work := c.work.drawn t fun _ _ => bg })
    fg hs ht hin h
  unfold hextileCommit
  rw [bind_of_ok (modify_apply _ _), bind_of_ok hfill, bind_of_ok hsubrects]
  exact consume_tile ⟨subrects.foldl (HexSubrect.draw t fg) (c.work.drawn t fun _ _ => bg), bg, fg⟩ h.le h.next.2

theorem hextileRaw_apply {sub : UInt8} {pixels : List WirePixel} (hlen : pixels.length = t.w * t.h)
    (hin : c.work.Holds t.x t.y t.w t.h) (h : Front c.buf 0 (sub :: (pixels.flatMap WirePixel.bytes ++ y))) :
    hextileRaw t c =
      .ok (true, afterTile c ⟨c.work.drawn t fun col row => colourOr 0 pixels[row * t.w + col]?, c.hexBg, c.hexFg⟩ y) := by
  have hpixels : Front c.buf 1 (pixels.flatMap WirePixel.bytes ++ y) := Front.next (x := [sub]) h
  have hsize : 1 + t.w * t.h * 4 ≤ c.buf.length := by
    have hle := hpixels.le
    rwa [flatMap_wire_length, hlen] at hle
  have hrows : rawRows t.x t.y t.w t.h 1 c =
      .ok ((), c.draw t fun col row => colourOr 0 pixels[row * t.w + col]?) := by
    refine eq_ok_of_wp (wp_mono (wp_rawRows hin hsize) fun _ _ heq => ⟨rfl, heq.trans ?_⟩)
    refine congrArg (fun i => { c with work := i }) (Image.drawn_congr c.work fun col hcol row hrow => ?_)
    have hpix : row * t.w + col + 1 ≤ t.w * t.h := pixel_lt hrow hcol
    exact hpixels.wirePixels (by omega)
  unfold hextileRaw
  have hrest := hpixels.next.2
  rw [flatMap_wire_length, hlen] at hrest
  rw [need_enough hsize, bind_of_ok hrows]
  exact consume_tile ⟨c.work.drawn t fun col row => colourOr 0 pixels[row * t.w + col]?, c.hexBg, c.hexFg⟩ hsize hrest

/-- A tile that has arrived is used up, and drawn. -/
theorem stepHextileTile_apply {tile : HexTile} {rest : List UInt8} (hfits : tile.Fits (hextileTile c).w (hextileTile c).h)
    (hin : c.work.Holds (hextileTile c).x (hextileTile c).y (hextileTile c).w (hextileTile c).h)
    (hbuf : c.buf = tile.bytes ++ rest) :
    stepHextileTile c = .ok (true, afterTile c (tile.decode (hextileTile c) (hexState c)) rest) := by
  have hstart : Front c.buf 0 (tile.bytes ++ rest) := by
    rw [hbuf]
    exact .start _
  have ht : (hextileTile c).w ≤ 16 ∧ (hextileTile c).h ≤ 16 := ⟨Nat.min_le_left _ _, Nat.min_le_left _ _⟩
  unfold stepHextileTile
  cases tile with
  | raw sub pixels =>
    obtain ⟨hraw, hlen⟩ := hfits
    have hle : 0 + (sub :: pixels.flatMap WirePixel.bytes).length ≤ c.buf.length := hstart.le
    rw [List.length_cons] at hle
    rw [need_enough (by omega), bind_of_ok (gets_apply _ _), bind_of_ok (Front.byte hstart), if_pos hraw]
    exact hextileRaw_apply hlen hin hstart
  | drawn sub background foreground subrects =>
    obtain ⟨hraw, hbg, hfg, hcount, hnone, hsubrects⟩ := hfits
    have hstart' : Front c.buf 0 ([sub] ++ (colourBytes background ++ (colourBytes foreground ++
        (countBytes sub subrects ++ (subrects.flatMap HexSubrect.bytes ++ rest))))) := by
      simpa [HexTile.bytes] using hstart
    have hle : 0 + 1 ≤ c.buf.length := hstart'.le
    have hbackground : Front c.buf 1 (colourBytes background ++ _) := hstart'.next
    have hforeground := hbackground.next
    have hcounted := hforeground.next
    have hfront := hcounted.next
    have hsize (p : Nat) (hp : Front c.buf p (subrects.flatMap HexSubrect.bytes ++ rest)) :
        p + subrects.length * (if hexSubrectsColoured sub then 6 else 2) ≤ c.buf.length := by
      rw [← flatMap_subrect_length hsubrects]
      exact hp.le
    rw [need_enough (by omega), bind_of_ok (gets_apply _ _), bind_of_ok (Front.byte hstart'), if_neg (by rw [hraw]; decide),
      bind_of_ok (gets_apply _ _), bind_of_ok (gets_apply _ _), bind_of_ok (hextileColour_apply hbg hbackground)]
    simp only
    rw [bind_of_ok (hextileColour_apply hfg hforeground)]
    simp only
    rw [bind_of_ok (hextileCount_apply hcount hnone hcounted)]
    simp only
    rw [need_enough (hsize _ hfront)]
    exact hextileCommit_apply hsubrects ht hin hfront

end Tiles

/-! ## The loop over the tiles -/

/-- The loop has come to tile `k`. -/
structure HexAt (c : VncClient E) (k : Nat) : Prop where
  col : c.tileX = 16 * (k % hexColumns c.rect)
  row : c.tileY = 16 * (k / hexColumns c.rect)

theorem hexColumns_pos {r : Rect} (hw : 0 < r.w) : 0 < hexColumns r := by
  unfold hexColumns
  omega

/-- Every tile of the grid begins inside the rectangle. -/
theorem hexTileAt_begins {r : Rect} {k : Nat} (hk : k < hexColumns r * hexRows r) :
    16 * (k % hexColumns r) < r.w ∧ 16 * (k / hexColumns r) < r.h := by
  have hcols : 0 < hexColumns r := Nat.pos_of_ne_zero fun h => by
    rw [h, Nat.zero_mul] at hk
    cases hk
  have hcol := Nat.mod_lt k hcols
  have hrow : k / hexColumns r < hexRows r := Nat.div_lt_of_lt_mul hk
  unfold hexRows at hrow
  generalize k / hexColumns r = row at hrow ⊢
  generalize k % hexColumns r = col at hcol ⊢
  unfold hexColumns at hcol
  omega

theorem succ_div_mod (k : Nat) {n : Nat} (hn : 0 < n) :
    (k % n + 1 = n → (k + 1) % n = 0 ∧ (k + 1) / n = k / n + 1) ∧
      (k % n + 1 < n → (k + 1) % n = k % n + 1 ∧ (k + 1) / n = k / n) := by
  have hk := Nat.div_add_mod k n
  constructor
  · intro hlast
    have hnext : k + 1 = n * (k / n + 1) := by
      rw [Nat.mul_succ]
      omega
    rw [hnext]
    exact ⟨Nat.mul_mod_right n _, Nat.mul_div_cancel_left _ hn⟩
  · intro hmore
    have hnext : k + 1 = n * (k / n) + (k % n + 1) := by omega
    constructor
    · conv => lhs; rw [hnext]
      rw [Nat.mul_add_mod, Nat.mod_eq_of_lt hmore]
    · conv => lhs; rw [hnext]
      rw [Nat.mul_add_div hn, Nat.div_eq_of_lt hmore, Nat.add_zero]

theorem HexAt.next {k : Nat} (h : HexAt c k) (hw : 0 < c.rect.w) :
    nextHextile c = .ok ((), { c with tileX := 16 * ((k + 1) % hexColumns c.rect), tileY := 16 * ((k + 1) / hexColumns c.rect) }) := by
  have hcols := hexColumns_pos hw
  obtain ⟨hlast, hmore⟩ := succ_div_mod k hcols
  have hcol := Nat.mod_lt k hcols
  have hx := h.col
  have hy := h.row
  unfold nextHextile
  rw [modify_apply]
  by_cases hend : k % hexColumns c.rect + 1 = hexColumns c.rect
  · obtain ⟨h0, h1⟩ := hlast hend
    have hover : c.tileX + 16 ≥ c.rect.w := by
      unfold hexColumns at hx hend
      omega
    rw [if_pos hover, h0, h1, hy]
    rfl
  · obtain ⟨h0, h1⟩ := hmore (by omega)
    have hunder : ¬ c.tileX + 16 ≥ c.rect.w := by
      unfold hexColumns at hx hend hcol
      omega
    rw [if_neg hunder, h0, h1, ← hy, hx]
    rfl

theorem HexAt.tile {k : Nat} (h : HexAt c k) : hextileTile c = hexTileAt c.rect k := by
  unfold hextileTile hexTileAt
  rw [h.col, h.row]

theorem HexAt.holds {k : Nat} (h : HexAt c k) (hk : k < hexColumns c.rect * hexRows c.rect) (hin : Inside c) :
    c.work.Holds (hextileTile c).x (hextileTile c).y (hextileTile c).w (hextileTile c).h := by
  obtain ⟨hx, hy⟩ := hexTileAt_begins hk
  obtain ⟨hix, hiy⟩ := hin
  rw [h.tile]
  unfold Image.Holds hexTileAt
  exact ⟨by simp only; omega, by simp only; omega⟩

theorem hextileLoop_stop (h : ¬ c.tileY < c.rect.h) (n : Nat) : hextileLoop n c = .ok (true, c) := by
  unfold hextileLoop
  exact loopWhile_stop (by simpa using h) n

theorem hextileLoop_next {c₁ c₂ : VncClient E} (h : c.tileY < c.rect.h) (htile : stepHextileTile c = .ok (true, c₁))
    (hnext : nextHextile c₁ = .ok ((), c₂)) (n : Nat) : hextileLoop (n + 1) c = hextileLoop n c₂ := by
  unfold hextileLoop
  exact loopWhile_next (by simpa using h) htile hnext n

theorem hextileLoop_starved (h : c.tileY < c.rect.h) (hbuf : c.buf = []) (n : Nat) : hextileLoop (n + 1) c = .ok (false, c) := by
  have hwait : stepHextileTile c = .ok (false, c) := need_short (by rw [hbuf]; decide)
  unfold hextileLoop
  rw [loopWhile_succ (by simpa using h), bind_of_ok hwait]
  rfl

/-- A tile leaves an image of the same size. -/
theorem HexTile.decode_size (t : Rect) (s : HexState) (tile : HexTile) :
    (tile.decode t s).image.width = s.image.width ∧ (tile.decode t s).image.height = s.image.height := by
  cases tile with
  | raw => exact ⟨rfl, rfl⟩
  | drawn sub background foreground subrects => exact foldl_draw_size _ _ subrects

/-- The tiles that are left, from tile `k` on. -/
theorem hextileLoop_apply {m k n : Nat} {tiles : List HexTile} {rest : List UInt8} (hat : HexAt c k) (hw : 0 < c.rect.w)
    (hin : Inside c) (hleft : k + m = hexColumns c.rect * hexRows c.rect) (hn : m < n)
    (hfits : List.Forall₂ (fun t tile => tile.Fits t.w t.h) ((List.range' k m).map (hexTileAt c.rect)) tiles)
    (hbuf : c.buf = tiles.flatMap HexTile.bytes ++ rest) :
    hextileLoop n c = .ok (true,
      { afterTile c (decodeTiles (hexState c) ((List.range' k m).map (hexTileAt c.rect)) tiles) rest with
        tileX := 0
        tileY := 16 * hexRows c.rect }) := by
  induction m generalizing k n c tiles with
  | zero =>
    cases hfits
    rw [Nat.add_zero] at hleft
    have hx : c.tileX = 0 := by rw [hat.col, hleft, Nat.mul_mod_right]
    have hy : c.tileY = 16 * hexRows c.rect := by rw [hat.row, hleft, Nat.mul_div_cancel_left _ (hexColumns_pos hw)]
    have hover : ¬ c.tileY < c.rect.h := by
      unfold hexRows at hy
      omega
    have hrest : c.buf = rest := hbuf
    refine (hextileLoop_stop hover n).trans ?_
    show Except.ok (true, c) = Except.ok (true, { c with buf := rest, tileX := 0, tileY := 16 * hexRows c.rect })
    rw [← hx, ← hy, ← hrest]
  | succ m ih =>
    obtain ⟨n, rfl⟩ : ∃ n', n = n' + 1 := ⟨n - 1, by omega⟩
    have hk : k < hexColumns c.rect * hexRows c.rect := by omega
    have hmore : c.tileY < c.rect.h := by
      rw [hat.row]
      exact (hexTileAt_begins hk).2
    rw [List.range'_succ, List.map_cons] at hfits ⊢
    cases hfits with
    | @cons _ tile _ tiles hone hfits =>
      rw [List.flatMap_cons, List.append_assoc] at hbuf
      rw [← hat.tile] at hone
      have hstep := stepHextileTile_apply hone (hat.holds hk hin) hbuf
      rw [hat.tile] at hstep
      have hsize := HexTile.decode_size (hexTileAt c.rect k) (hexState c) tile
      have hat' : HexAt (afterTile c (tile.decode (hexTileAt c.rect k) (hexState c)) (tiles.flatMap HexTile.bytes ++ rest)) k :=
        ⟨hat.col, hat.row⟩
      rw [hextileLoop_next hmore hstep (hat'.next hw)]
      have hleft' : k + 1 + m = hexColumns c.rect * hexRows c.rect := by omega
      refine (ih (c := {
        afterTile c (tile.decode (hexTileAt c.rect k) (hexState c)) (tiles.flatMap HexTile.bytes ++ rest) with
        tileX := 16 * ((k + 1) % hexColumns c.rect)
        tileY := 16 * ((k + 1) / hexColumns c.rect) }) ⟨rfl, rfl⟩ hw ⟨?_, ?_⟩ hleft' (by omega) hfits rfl).trans rfl
      · exact Nat.le_trans hin.1 (Nat.le_of_eq hsize.1.symm)
      · exact Nat.le_trans hin.2 (Nat.le_of_eq hsize.2.symm)

/-- All tiles of the rectangle. -/
theorem decodeHextile_apply {tiles : List HexTile} {rest : List UInt8} (hat : HexAt c 0) (hw : 0 < c.rect.w) (hin : Inside c)
    (hfits : List.Forall₂ (fun t tile => tile.Fits t.w t.h) (hexGrid c.rect) tiles)
    (hbuf : c.buf = tiles.flatMap HexTile.bytes ++ rest) :
    decodeHextile c = .ok (true,
      { afterTile c (decodeTiles (hexState c) (hexGrid c.rect) tiles) rest with tileX := 0, tileY := 16 * hexRows c.rect }) := by
  have hx : c.tileX = 0 := hat.col.trans (by rw [Nat.zero_mod])
  have hy : c.tileY = 0 := hat.row.trans (by rw [Nat.zero_div])
  have hfuel : hexColumns c.rect * hexRows c.rect ≤ hextilesLeft c := by
    have hcols : hexColumns c.rect ≤ c.rect.w + 1 := by
      unfold hexColumns
      omega
    have hrows : hexRows c.rect ≤ c.rect.h := by
      unfold hexRows
      omega
    unfold hextilesLeft
    rw [hx, hy, Nat.sub_zero, Nat.sub_zero]
    calc hexColumns c.rect * hexRows c.rect ≤ (c.rect.w + 1) * c.rect.h := Nat.mul_le_mul hcols hrows
      _ = c.rect.h * (c.rect.w + 1) := Nat.mul_comm _ _
      _ ≤ c.rect.h * (c.rect.w + 1) + c.rect.w := Nat.le_add_right _ _
  unfold hexGrid at hfits ⊢
  rw [List.range_eq_range'] at hfits ⊢
  exact hextileLoop_apply hat hw hin (Nat.zero_add _) (Nat.lt_succ_of_le hfuel) hfits hbuf

/-! ## Rectangles -/

/-- A Hextile rectangle that is being decoded. -/
structure InHextile (c : VncClient E) : Prop where
  inv : Inv c
  stage : c.stage = .running
  inRect : c.inRect = true
  encoding : c.encoding = encHextile

theorem InHextile.tiling (h : InHextile c) : Tiling c := by
  have hok := h.inv.rect h.stage h.inRect
  have hcontains : c.work.rect.contains c.rect = true := by
    rcases hok.inside with he | he | hin
    · rw [h.encoding] at he
      exact absurd he (by decide)
    · rw [h.encoding] at he
      exact absurd he (by decide)
    · exact hin
  exact ⟨.of_inv h.inv h.stage, hok, Image.le_of_rect_contains hcontains⟩

theorem decodeRect_hextile : (decodeRect encHextile : ClientM E Bool) = thenDirty decodeHextile := rfl

theorem decodeRect_hextile_done (h : decodeHextile c = .ok (true, c')) :
    decodeRect encHextile c = .ok (true, { c' with dirty := c'.dirty.united c'.rect }) := by
  rw [decodeRect_hextile, thenDirty, bind_of_ok h]
  rfl

theorem inHextile_pending : (inbox E).Pending (decodeRect encHextile) InHextile where
  live {c} h := by
    have hl := h.tiling.live
    simp [inbox, hl.stage, hl.failed]
  append {c} h x := ⟨inv_append h.inv x, h.stage, h.inRect, h.encoding⟩
  safe {c f} h hfault := by
    have hafter : wp (fun _ => False) (thenDirty decodeHextile) (After c) c := thenDirty_after (decodeHextile_after h.tiling)
    exact wp_error hafter hfault
  wait {c c'} h hwait hh := by
    have hafter : wp (fun _ => False) (thenDirty decodeHextile) (After c) c := thenDirty_after (decodeHextile_after h.tiling)
    have hdec := decodeRect_decodes (r := c.rect) (by decide) c false c' hwait rfl
    have hstage : c'.stage = .running := by
      cases hdec.ended with
      | goesOn hs => exact hs.trans h.stage
      | failed _ _ hs =>
        simp only [inbox, hs] at hh
        cases hh
    exact ⟨(wp_ok hafter hwait).inv rfl, hstage, hdec.inRect.trans h.inRect, hdec.encoding.trans h.encoding⟩

/-- What the decoder owes for the Hextile rectangle it has entered, however the data arrives: a tile for each cell of the grid is
used up, and the picture of the reference decoder is left. -/
def HextileExact (c : VncClient E) : Prop :=
  ∀ (tiles : List HexTile) (rest first : List UInt8) (pieces : List (List UInt8)),
    List.Forall₂ (fun t tile => tile.Fits t.w t.h) (hexGrid c.rect) tiles →
    first ++ pieces.flatten = tiles.flatMap HexTile.bytes ++ rest →
    ∃ c', (inbox E).arriving (decodeRect encHextile) pieces { c with buf := first } = .ok (true, c') ∧
      c'.buf = rest ∧ c'.work = hexPicture c.rect c.work tiles ∧ c'.stage = .running

theorem hextileExact_of_width (hl : Live c) (henc : (entered c).encoding = encHextile)
    (haccepted : (entered c).work.rect.contains (entered c).rect = true) (hw : 0 < (entered c).rect.w) :
    HextileExact (entered c) := by
  intro tiles rest first pieces hfits hdata
  have hl' : Live { entered c with buf := first } := hl.of_eq rfl rfl rfl rfl rfl
  have hin : InHextile { entered c with buf := first } :=
    ⟨hl'.inv fun _ => ⟨be16_lt _ _, be16_lt _ _, .inr (.inr haccepted), Nat.zero_le _⟩, hl.stage, rfl, henc⟩
  have hat : HexAt { entered c with buf := first ++ pieces.flatten } 0 :=
    ⟨(congrArg (16 * ·) (Nat.zero_mod _)).symm, (congrArg (16 * ·) (Nat.zero_div _)).symm⟩
  have hwhole := decodeHextile_apply hat hw (Image.le_of_rect_contains haccepted) hfits hdata
  have harrives := (decodeRect_resumes encHextile).arriving inHextile_pending pieces hin (decodeRect_hextile_done hwhole)
  exact ⟨_, harrives, rfl, rfl, hl.stage⟩

theorem Rect.height_pos {a r : Rect} (h : a.contains r = true) (hw : r.w = 0) : 0 < r.h := by
  have hnull := Rect.not_null_of_contains h
  simp only [Rect.isNull, decide_eq_false_iff_not, not_and] at hnull
  exact Nat.pos_of_ne_zero (hnull hw)

/-- Hextile rectangles of the client are those of the format if and only if they have columns. -/
theorem hextile_exact_iff (c : VncClient E) (hl : Live c) (henc : (entered c).encoding = encHextile)
    (haccepted : (entered c).work.rect.contains (entered c).rect = true) :
    HextileExact (entered c) ↔ 0 < (entered c).rect.w := by
  refine ⟨fun h => Nat.pos_of_ne_zero fun hw => ?_, hextileExact_of_width hl henc haccepted⟩
  -- no tiles are due, none are there
  have hgrid : hexGrid (entered c).rect = [] := by
    unfold hexGrid hexColumns
    rw [hw]
    exact congrArg (fun n => (List.range n).map (hexTileAt (entered c).rect)) (Nat.zero_mul _)
  obtain ⟨c', hdone, -⟩ := h [] [] [] [] (by rw [hgrid]; exact .nil) rfl
  have hmore : (0 : Nat) < (entered c).rect.h := Rect.height_pos haccepted hw
  have hwait : decodeHextile { entered c with buf := [] } = .ok (false, { entered c with buf := [] }) :=
    hextileLoop_starved hmore rfl _
  have hrect : decodeRect encHextile { entered c with buf := [] } = .ok (false, { entered c with buf := [] }) := by
    rw [decodeRect_hextile, thenDirty, bind_of_ok hwait]
    rfl
  have hsame := hrect.symm.trans hdone
  cases hsame

theorem Live.appended (h : Live c) (chunk : List UInt8) : Live (appendChunk chunk c) := h.of_eq rfl rfl rfl rfl rfl

/-- The white pixel, and the header of a Hextile rectangle of one row. -/
def hextileSent (width : UInt8) : VncClient .bare := appendChunk [0, 0, 0, 0, 0, width, 0, 1, 0, 0, 0, 5] whiteScreen

theorem hextileSent_live (width : UInt8) : Live (hextileSent width) := by
  obtain ⟨marks, hmoves⟩ := whiteScreen_moves
  have hl : Live whiteScreen := .of_inv (hmoves.inv (inv_connecting .bare none [] "")) (by decide +kernel)
  exact hl.appended _

theorem hextile_exact_iff_one : HextileExact (entered (hextileSent 1)) ↔ 0 < (entered (hextileSent 1)).rect.w :=
  hextile_exact_iff (hextileSent 1) (hextileSent_live 1) (by decide +kernel) (by decide +kernel)

/-- A column of no pixels is accepted, and its one row of tiles is waited for. -/
theorem hextile_empty_rect_waits :
    Live (hextileSent 0) ∧ (entered (hextileSent 0)).encoding = encHextile ∧
      (entered (hextileSent 0)).work.rect.contains (entered (hextileSent 0)).rect = true ∧ ¬ HextileExact (entered (hextileSent 0)) := by
  refine ⟨hextileSent_live 0, by decide +kernel, by decide +kernel, fun h => ?_⟩
  have hgrid : hexGrid (entered (hextileSent 0)).rect = [] := by decide +kernel
  obtain ⟨c', hdone, -⟩ := h [] [] [] [] (by rw [hgrid]; exact .nil) rfl
  have hwait : value (decodeRect encHextile { entered (hextileSent 0) with buf := [] }) = some false := by decide +kernel
  have hdone' : decodeRect encHextile { entered (hextileSent 0) with buf := [] } = .ok (true, c') := hdone
  rw [hdone'] at hwait
  cases hwait

end LvdTerm.Vnc
