import LvdTerm.Vnc.Painting
import LvdTerm.Vnc.ZrleFormat

/-!
# VNC client: the Hextile format

What an encoder writes for a rectangle: tiles of 16x16 pixels, clipped at the right and lower edges,
each with raw pixels or with a background and subrectangles over it. Colours that a tile does not
have are those of the tile before it.
-/
namespace LvdTerm.Vnc

/-! ## Wire pixels -/

/-- Four bytes for a colour, the last of them unused. -/
structure WirePixel where
  rgb : Rgb
  pad : UInt8

def WirePixel.bytes (p : WirePixel) : List UInt8 := p.rgb.bytes ++ [p.pad]

@[simp] theorem WirePixel.bytes_length (p : WirePixel) : p.bytes.length = 4 := rfl

def WirePixel.color (p : WirePixel) : QRgb := p.rgb.color

/-! ## Tiles -/

/-- A subrectangle, from the corner of its tile. -/
structure HexSubrect where
  rect : Rect
  colour : Option WirePixel

/-- A tile; `sub` is the sub-encoding byte with the bits that say what follows. -/
inductive HexTile where
  | raw (sub : UInt8) (pixels : List WirePixel)
  | drawn (sub : UInt8) (background foreground : Option WirePixel) (subrects : List HexSubrect)

/-- A colour that may be left out. -/
def colourBytes (colour : Option WirePixel) : List UInt8 := (colour.map WirePixel.bytes).getD []

def HexSubrect.bytes (s : HexSubrect) : List UInt8 :=
  colourBytes s.colour ++ [UInt8.ofNat (s.rect.x * 16 + s.rect.y), UInt8.ofNat ((s.rect.w - 1) * 16 + (s.rect.h - 1))]

/-- The number of subrectangles, if there may be any. -/
def countBytes (sub : UInt8) (subrects : List HexSubrect) : List UInt8 :=
  if hexAnySubrects sub then [UInt8.ofNat subrects.length] else []

def HexTile.bytes : HexTile → List UInt8
  | raw sub pixels => sub :: pixels.flatMap WirePixel.bytes
  | drawn sub background foreground subrects =>
    sub :: (colourBytes background ++ (colourBytes foreground ++ (countBytes sub subrects ++ subrects.flatMap HexSubrect.bytes)))

/-- A subrectangle of a tile of `w` by `h` pixels. -/
structure HexSubrect.Fits (s : HexSubrect) (coloured : Bool) (w h : Nat) : Prop where
  colour : s.colour.isSome = coloured
  pos : 0 < s.rect.w ∧ 0 < s.rect.h
  inside : s.rect.x + s.rect.w ≤ w ∧ s.rect.y + s.rect.h ≤ h

/-- An encoding of a tile of `w` by `h` pixels. -/
def HexTile.Fits (w h : Nat) : HexTile → Prop
  | raw sub pixels => hexRaw sub = true ∧ pixels.length = w * h
  | drawn sub background foreground subrects =>
    hexRaw sub = false ∧ background.isSome = hexBackgroundSpecified sub ∧ foreground.isSome = hexForegroundSpecified sub ∧
      subrects.length < 256 ∧ (hexAnySubrects sub = false → subrects = []) ∧
      ∀ s ∈ subrects, s.Fits (hexSubrectsColoured sub) w h

/-! ## The tiles of a rectangle -/

def hexColumns (r : Rect) : Nat := (r.w + 15) / 16

def hexRows (r : Rect) : Nat := (r.h + 15) / 16

/-- The `k`-th tile, row by row. -/
def hexTileAt (r : Rect) (k : Nat) : Rect :=
  ⟨r.x + 16 * (k % hexColumns r), r.y + 16 * (k / hexColumns r), min 16 (r.w - 16 * (k % hexColumns r)),
    min 16 (r.h - 16 * (k / hexColumns r))⟩

def hexGrid (r : Rect) : List Rect := (List.range (hexColumns r * hexRows r)).map (hexTileAt r)

/-! ## The reference decoder -/

/-- The picture so far and the colours that carry over. -/
structure HexState where
  image : Image
  bg : QRgb
  fg : QRgb

/-- A colour, or the one there was. -/
def colourOr (old : QRgb) (colour : Option WirePixel) : QRgb := (colour.map WirePixel.color).getD old

def HexSubrect.draw (t : Rect) (fg : QRgb) (i : Image) (s : HexSubrect) : Image :=
  i.drawn ⟨t.x + s.rect.x, t.y + s.rect.y, s.rect.w, s.rect.h⟩ fun _ _ => colourOr fg s.colour

/-- One tile. -/
def HexTile.decode (t : Rect) (s : HexState) : HexTile → HexState
  | raw _ pixels => { s with image := s.image.drawn t fun col row => colourOr 0 pixels[row * t.w + col]? }
  | drawn _ background foreground subrects =>
    { image := subrects.foldl (HexSubrect.draw t (colourOr s.fg foreground)) (s.image.drawn t fun _ _ => colourOr s.bg background)
      bg := colourOr s.bg background
      fg := colourOr s.fg foreground }

/-- Tiles one after the other. -/
def decodeTiles (s : HexState) (grid : List Rect) (tiles : List HexTile) : HexState :=
  (grid.zip tiles).foldl (fun s p => p.2.decode p.1 s) s

/-- The picture of a rectangle: black and white are the colours it starts with. -/
def hexPicture (r : Rect) (i : Image) (tiles : List HexTile) : Image :=
  (decodeTiles ⟨i, qRgb 0 0 0, qRgb 255 255 255⟩ (hexGrid r) tiles).image

end LvdTerm.Vnc
