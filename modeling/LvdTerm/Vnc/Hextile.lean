import LvdTerm.Vnc.Client

/-!
# VNC client: Hextile

`stepHextileTile` decodes one 16x16 tile (clipped at the edges) or changes nothing; the
loop around it in `stepRect` goes on from `m_tileX`, `m_tileY`.
-/
namespace LvdTerm.Vnc

open Lib

variable {E : Env}

/-- Geometry of the tile at `m_tileX`, `m_tileY`. -/
def hextileTile (c : VncClient E) : Rect :=
  ⟨c.rect.x + c.tileX, c.rect.y + c.tileY, min 16 (c.rect.w - c.tileX), min 16 (c.rect.h - c.tileY)⟩

def hexRaw (sub : UInt8) : Bool := sub &&& 1 ≠ 0
def hexBackgroundSpecified (sub : UInt8) : Bool := sub &&& 2 ≠ 0
def hexForegroundSpecified (sub : UInt8) : Bool := sub &&& 4 ≠ 0
def hexAnySubrects (sub : UInt8) : Bool := sub &&& 8 ≠ 0
def hexSubrectsColoured (sub : UInt8) : Bool := sub &&& 16 ≠ 0

/-- Wire pixels in rows, as raw rectangles and raw tiles have them. -/
def rawRows (x y w h pos : Nat) : ClientM E Unit :=
  Action.forRange h fun row => Action.forRange w fun col => do
    let color ← pixelAt (pos + (row * w + col) * 4)
    setPixel (x + col) (y + row) color

def hextileRaw (t : Rect) : ClientM E Bool :=
  need (1 + t.w * t.h * 4) do
    rawRows t.x t.y t.w t.h 1
    consume (1 + t.w * t.h * 4)
    pure true

/-- One subrectangle; the accumulator is `some pos`, or `none` once the client has failed. -/
def hextileSubrect (t : Rect) (fg : QRgb) (coloured : Bool) (pos : Option Nat) :
    ClientM E (Option Nat) :=
  match pos with
  | none => pure none
  | some pos => do
    let colour ← if coloured then pixelAt pos else pure fg
    let pos := if coloured then pos + 4 else pos
    let xy ← u8 pos
    let wh ← u8 (pos + 1)
    let sx := xy.toNat / 16
    let sy := xy.toNat % 16
    let sw := wh.toNat / 16 + 1
    let sh := wh.toNat % 16 + 1
    if sx + sw > t.w ∨ sy + sh > t.h then
      fail "The server sent an invalid Hextile subrectangle"
      pure none
    else
      fillRect (t.x + sx) (t.y + sy) sw sh colour
      pure (some (pos + 2))

/-- From `Everything is here: commit` on. -/
def hextileCommit (t : Rect) (bg fg : QRgb) (coloured : Bool) (subrects pos : Nat) : ClientM E Bool := do
  Action.modify fun c => { c with hexBg := bg, hexFg := fg }
  fillRect t.x t.y t.w t.h bg
  let pos ← Action.foldRange (fun _ => hextileSubrect t fg coloured) subrects (some pos)
  match pos with
  | none => pure false
  | some pos =>
    consume pos
    pure true

/-- The optional colour at `pos`: the old one if it is not specified. -/
def hextileColour (specified : Bool) (pos : Nat) (old : QRgb) : ClientM E (Option (QRgb × Nat)) :=
  if specified then
    peek (pos + 4) do
      let colour ← pixelAt pos
      pure (some (colour, pos + 4))
  else pure (some (old, pos))

def hextileCount (specified : Bool) (pos : Nat) : ClientM E (Option (Nat × Nat)) :=
  if specified then
    peek (pos + 1) do
      let subrects ← u8 pos
      pure (some (subrects.toNat, pos + 1))
  else pure (some (0, pos))

def stepHextileTile : ClientM E Bool :=
  need 1 do
    let t ← Action.gets hextileTile
    let sub ← u8 0
    if hexRaw sub then hextileRaw t
    else
      let bg ← Action.gets fun c => c.hexBg
      let fg ← Action.gets fun c => c.hexFg
      let background ← hextileColour (hexBackgroundSpecified sub) 1 bg
      match background with
      | none => pure false
      | some (bg, pos) =>
        let foreground ← hextileColour (hexForegroundSpecified sub) pos fg
        match foreground with
        | none => pure false
        | some (fg, pos) =>
          let count ← hextileCount (hexAnySubrects sub) pos
          match count with
          | none => pure false
          | some (subrects, pos) =>
            let coloured := hexSubrectsColoured sub
            need (pos + subrects * if coloured then 6 else 2)
              (hextileCommit t bg fg coloured subrects pos)

/-- `m_tileX += 16; if (m_tileX >= m_rect.width()) …` -/
def nextHextile : ClientM E Unit :=
  Action.modify fun c =>
    if c.tileX + 16 ≥ c.rect.w then { c with tileX := 0, tileY := c.tileY + 16 }
    else { c with tileX := c.tileX + 16 }

/-- A bound on the tiles that are left. -/
def hextilesLeft (c : VncClient E) : Nat := (c.rect.h - c.tileY) * (c.rect.w + 1) + (c.rect.w - c.tileX)

/-- `while (m_tileY < m_rect.height())`; `hextilesLeft` bounds its rounds. -/
def hextileLoop : Nat → ClientM E Bool :=
  Action.loopWhile (fun c => c.tileY < c.rect.h) stepHextileTile nextHextile

def decodeHextile : ClientM E Bool := fun c => hextileLoop (hextilesLeft c + 1) c

end LvdTerm.Vnc
