import LvdTerm.Vnc.Handshake
import LvdTerm.Vnc.Hextile
import LvdTerm.Vnc.Tight
import LvdTerm.Vnc.Zrle

/-!
# VNC client: rectangles

`stepZrle` around the tile loops, `stepRect` with the encodings decoded in place, and the
end of an update. `m_work` and `m_fb` are written pixel by pixel, so every write is
checked against the image it goes to.
-/
namespace LvdTerm.Vnc

open Lib

variable {E : Env}

/-! ## ZRLE -/

/-- `m_zrleStream`, created if it does not exist; `none` if that fails. -/
def zrleState : ClientM E (Option (InflateState E)) := do
  let stream ← Action.gets fun c => c.zrleStream
  match stream with
  | some s => pure (some s)
  | none =>
    match (InflateState.mk none : InflateState E).reset with
    | none =>
      Action.modify fun c => { c with zrleStream := some ⟨none⟩ }
      pure none
    | some s =>
      Action.modify fun c => { c with zrleStream := some s }
      pure (some s)

def drawWrite (w : Write) : ClientM E Unit :=
  match w.color with
  | none => Action.throw .uninitialised
  | some color => setPixel w.x w.y color

/-- The writes of the tile loops, in their order. -/
def drawWrites : List Write → ClientM E Unit
  | [] => pure ()
  | w :: ws => do
    drawWrite w
    drawWrites ws

/-- From the tile loops on, with the payload inflated. -/
def zrleRect (payload : List UInt8) : ClientM E Bool := do
  let rect ← Action.gets fun c => c.rect
  let r := zrleDecode (zrleTiles rect) payload
  drawWrites r.writes
  match r.finish with
  | .fault f => Action.throw f
  | .corrupt => failStep "The server sent a corrupt ZRLE rectangle"
  | .ok _ =>
    addDirty rect
    pure true

def stepZrle : ClientM E Bool :=
  need 4 do
    let length ← u32 0
    if length > 64 * 2 ^ 20 then failStep "The server sent an oversized ZRLE rectangle"
    else need (4 + length) do
      let state ← zrleState
      match state with
      | none => failStep "zlib failed"
      | some state =>
        let input ← bytes 4 length
        match state.zs with
        | none => failStep "The server sent corrupt compressed data"
        | some zs =>
          let chunk := inflateAll zs input
          Action.modify fun c => { c with zrleStream := some ⟨some chunk.stream⟩ }
          if !chunk.ok then failStep "The server sent corrupt compressed data"
          else
            consume (4 + length)
            zrleRect chunk.out

/-! ## The end of an update -/

/-- One pixel from `m_work` to `m_fb`. -/
def showPixel (x y : Nat) : ClientM E Unit := fun c =>
  if x < c.work.width ∧ y < c.work.height ∧ x < c.fb.width ∧ y < c.fb.height then
    .ok ((), { c with fb := c.fb.set x y (c.work.pixel x y) })
  else .error .pixelWrite

def showRect (r : Rect) : ClientM E Unit :=
  Action.forRange r.h fun row => Action.forRange r.w fun col => showPixel (r.x + col) (r.y + row)

def finishUpdate : ClientM E Unit := do
  Action.modify fun c => { c with updates := c.updates + 1 }
  let all ← Action.gets fun c => c.dirty
  let work ← Action.gets fun c => c.work
  let resized ← Action.gets fun c => c.resized
  let dirty := all.intersected work.rect
  Action.modify fun c => { c with dirty := ⟨0, 0, 0, 0⟩ }
  if dirty.isValid then
    showRect dirty
    emit (.framebufferChanged dirty)
  else pure ()
  requestUpdate (!resized)
  Action.modify fun c => { c with resized := false }

/-! ## Rectangles -/

def kMaxDesktopDimension : Nat := 16384

/-- An unsigned 32-bit value as a signed one. -/
def toInt32 (v : Nat) : Int := if v < 2 ^ 31 then v else (v : Int) - 2 ^ 32

/-- The header of a rectangle: `true` if it is one that may be decoded. -/
def enterRect : ClientM E Bool := do
  let x ← u16 0
  let y ← u16 2
  let w ← u16 4
  let h ← u16 6
  let encoding ← u32 8
  let encoding := toInt32 encoding
  consume 12
  Action.modify fun c =>
    { c with rect := ⟨x, y, w, h⟩, encoding := encoding, inRect := true, tileX := 0, tileY := 0,
             hexBg := qRgb 0 0 0, hexFg := qRgb 255 255 255 }
  let work ← Action.gets fun c => c.work
  if encoding ≠ encDesktopSize ∧ encoding ≠ encLastRect ∧ !work.rect.contains ⟨x, y, w, h⟩ then
    failStep "The server sent an update outside the screen"
  else pure true

def decodeRaw : ClientM E Bool := do
  let rect ← Action.gets fun c => c.rect
  let size := rect.w * rect.h * 4
  need size do
    Action.forRange rect.h fun row => do
      let base ← int32 (row * rect.w * 4)
      Action.forRange rect.w fun col => do
        let color ← pixelAt (base + col * 4)
        setPixel (rect.x + col) (rect.y + row) color
    addDirty rect
    consume size
    pure true

/-- `memcpy` of the copied rows into `m_work`. -/
def pasteRows (x y : Nat) (copy : Image) : ClientM E Unit :=
  Action.forRange copy.height fun row => Action.forRange copy.width fun col =>
    setPixel (x + col) (y + row) (copy.pixel col row)

def decodeCopyRect : ClientM E Bool :=
  need 4 do
    let x ← u16 0
    let y ← u16 2
    let rect ← Action.gets fun c => c.rect
    let work ← Action.gets fun c => c.work
    let source : Rect := ⟨x, y, rect.w, rect.h⟩
    consume 4
    if !work.rect.contains source then failStep "The server sent an invalid copy region"
    else
      pasteRows rect.x rect.y (work.copy source)
      addDirty rect
      pure true

def decodeDesktopSize : ClientM E Bool := do
  let rect ← Action.gets fun c => c.rect
  if rect.w = 0 ∨ rect.h = 0 ∨ rect.w > kMaxDesktopDimension ∨ rect.h > kMaxDesktopDimension then
    failStep "The server sent an invalid desktop size"
  else
    allocFramebuffer rect.w rect.h
    addDirty ⟨0, 0, rect.w, rect.h⟩
    emit (.framebufferResized rect.w rect.h)
    Action.modify fun c => { c with resized := true }
    pure true

/-- `addDirty(m_rect)` behind a decoder that has finished. -/
def thenDirty (decode : ClientM E Bool) : ClientM E Bool := do
  let done ← decode
  if done then
    let rect ← Action.gets fun c => c.rect
    addDirty rect
    pure true
  else pure false

/-- `switch (m_encoding)`: `true` once the rectangle is complete. -/
def decodeRect (encoding : Int) : ClientM E Bool :=
  if encoding = encRaw then decodeRaw
  else if encoding = encCopyRect then decodeCopyRect
  else if encoding = encHextile then thenDirty decodeHextile
  else if encoding = encTight then thenDirty stepTight
  else if encoding = encZrle then stepZrle
  else if encoding = encLastRect then pure true
  else if encoding = encDesktopSize then decodeDesktopSize
  else failStep ("The server used an unsupported encoding (" ++ toString encoding ++ ")")

/-- `if (rectDone)`. -/
def finishRect : ClientM E Bool := do
  Action.modify fun c => { c with inRect := false }
  let lastRectMode ← Action.gets fun c => c.lastRectMode
  let encoding ← Action.gets fun c => c.encoding
  let rectsLeft ← Action.gets fun c => c.rectsLeft
  if lastRectMode then
    if encoding = encLastRect then
      Action.modify fun c => { c with lastRectMode := false, rectsLeft := 0 }
      finishUpdate
    else pure ()
  else
    Action.modify fun c => { c with rectsLeft := c.rectsLeft - 1 }
    if rectsLeft - 1 = 0 then finishUpdate else pure ()
  pure true

/-- The rectangle that has been entered, as far as its data goes. -/
def continueRect : ClientM E Bool := do
  let encoding ← Action.gets fun c => c.encoding
  let done ← decodeRect encoding
  if done then finishRect else pure false

def stepRect : ClientM E Bool := do
  let inRect ← Action.gets fun c => c.inRect
  if inRect then continueRect
  else need 12 do
    let entered ← enterRect
    if entered then continueRect else pure false

end LvdTerm.Vnc
