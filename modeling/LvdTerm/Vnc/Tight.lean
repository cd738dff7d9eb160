import LvdTerm.Vnc.Inflate

/-!
# VNC client: Tight

A control byte, then fill, JPEG or basic compression. The control byte's reset bits act
on the streams before anything else is known to have arrived; everything after that
only looks at the buffer until the whole rectangle is there.
-/
namespace LvdTerm.Vnc

open Lib

variable {E : Env}

/-! ## Streams -/

/-- Stream `i` after `reset`, created if it does not exist. -/
def resetStream (streams : Fin 4 → Option (InflateState E)) (i : Fin 4) : Option (InflateState E) :=
  ((streams i).getD ⟨none⟩).reset

/-- `m_tightStreams[i]`, when there is one that could be initialised. -/
def setStream (i : Fin 4) (s : InflateState E) : ClientM E Unit :=
  Action.modify fun c =>
    { c with tightStreams := fun j => if j = i then some s else c.tightStreams j }

def resetIfAsked (control : UInt8) (i : Fin 4) : ClientM E Bool := do
  if control.toNat / 2 ^ i.val % 2 = 1 then
    let streams ← Action.gets fun c => c.tightStreams
    match resetStream streams i with
    | none =>
      -- the stream exists from here on, but is not ready
      setStream i ((streams i).getD ⟨none⟩)
      failStep "zlib failed"
    | some s =>
      setStream i s
      pure true
  else pure true

/-- `for (int i = 0; i < 4; ++i) if (control & (1 << i)) …` -/
def resetStreams (control : UInt8) : ClientM E Bool := do
  let ok ← resetIfAsked control 0
  if !ok then pure false
  else
    let ok ← resetIfAsked control 1
    if !ok then pure false
    else
      let ok ← resetIfAsked control 2
      if !ok then pure false
      else resetIfAsked control 3

/-- The stream a basic rectangle uses, created if it does not exist; `none` if that fails. -/
def tightStream (i : Fin 4) : ClientM E (Option (InflateState E)) := do
  let streams ← Action.gets fun c => c.tightStreams
  match streams i with
  | some s => pure (some s)
  | none =>
    match resetStream streams i with
    | none =>
      setStream i ⟨none⟩
      pure none
    | some s =>
      setStream i s
      pure (some s)

/-! ## Lengths -/

/-- 1-3 bytes, 7 bits each, low bits first: the bytes used and the length, or `none` if
they have not all arrived. -/
def compactLength (off : Nat) : ClientM E (Option (Nat × Nat)) :=
  peek (off + 1) do
    let b₀ ← u8 off
    if b₀ < 128 then pure (some (1, b₀.toNat % 128))
    else peek (off + 2) do
      let b₁ ← u8 (off + 1)
      let length := b₀.toNat % 128 + b₁.toNat % 128 * 2 ^ 7
      if b₁ < 128 then pure (some (2, length))
      else peek (off + 3) do
        let b₂ ← u8 (off + 2)
        pure (some (3, length + b₂.toNat * 2 ^ 14))

/-! ## Fill and JPEG -/

def tightFill : ClientM E Bool :=
  need (1 + 3) do
    let rect ← Action.gets fun c => c.rect
    let r ← u8 1
    let g ← u8 2
    let b ← u8 3
    fillRect rect.x rect.y rect.w rect.h (qRgb r g b)
    consume (1 + 3)
    pure true

/-- `w` pixels of 3 bytes in each of `h` rows, `rowBytes` apart. -/
def rgbRows (r : Rect) (rowBytes : Nat) (data : List UInt8) : ClientM E Unit :=
  Action.forRange r.h fun y => do
    let row ← int32 (y * rowBytes)
    Action.forRange r.w fun x => do
      let red ← byteOf data (row + x * 3)
      let green ← byteOf data (row + (x * 3 + 1))
      let blue ← byteOf data (row + (x * 3 + 2))
      setPixel (r.x + x) (r.y + y) (qRgb red green blue)

/-- The decoded JPEG is read through one pointer (`p += 3`). -/
def jpegRows (r : Rect) (data : List UInt8) : ClientM E Unit :=
  Action.forRange r.h fun y => Action.forRange r.w fun x => do
    let red ← byteOf data ((y * r.w + x) * 3)
    let green ← byteOf data ((y * r.w + x) * 3 + 1)
    let blue ← byteOf data ((y * r.w + x) * 3 + 2)
    setPixel (r.x + x) (r.y + y) (qRgb red green blue)

def tightJpeg : ClientM E Bool := do
  let header ← compactLength 1
  match header with
  | none => pure false
  | some (n, length) =>
    need (1 + n + length) do
      let rect ← Action.gets fun c => c.rect
      let data ← bytes (1 + n) length
      match E.decodeJpegToRgb data with
      | none => failStep "The server sent a bad JPEG rectangle"
      | some j =>
        if j.width ≠ rect.w ∨ j.height ≠ rect.h then failStep "The server sent a bad JPEG rectangle"
        else
          jpegRows rect j.rgb
          consume (1 + n + length)
          pure true

/-! ## Basic compression -/

structure TightFilter where
  /-- 0 copy, 1 palette, 2 gradient. -/
  filter : Nat
  palette : List QRgb
  pos : Nat

inductive FilterHeader where
  | unsupported
  | ok (f : TightFilter)

def readTightPalette (pos n : Nat) : ClientM E (List QRgb) :=
  Action.foldRange (fun i palette => do
    let r ← u8 (pos + i * 3)
    let g ← u8 (pos + i * 3 + 1)
    let b ← u8 (pos + i * 3 + 2)
    pure (palette ++ [qRgb r g b])) n []

/-- The filter byte, if the control byte announces one, and the palette. -/
def tightFilter (control : UInt8) : ClientM E (Option FilterHeader) :=
  if control.toNat / 64 % 2 = 0 then pure (some (.ok ⟨0, [], 1⟩))
  else peek 2 do
    let filter ← u8 1
    if filter = 1 then
      peek 3 do
        let size ← u8 2
        peek (3 + (size.toNat + 1) * 3) do
          let palette ← readTightPalette 3 (size.toNat + 1)
          pure (some (.ok ⟨1, palette, 3 + (size.toNat + 1) * 3⟩))
    else if filter > 2 then pure (some .unsupported)
    else pure (some (.ok ⟨filter.toNat, [], 2⟩))

def TightFilter.onebit (f : TightFilter) : Bool := f.filter = 1 ∧ f.palette.length = 2

def TightFilter.rowBytes (f : TightFilter) (w : Nat) : Nat :=
  if f.filter = 1 then if f.onebit then (w + 7) / 8 else w else w * 3

def paletteAt (palette : List QRgb) (i : Nat) : ClientM E QRgb := fun c =>
  match palette[i]? with
  | some color => .ok (color, c)
  | none => .error .uninitialised

def paletteRows (r : Rect) (f : TightFilter) (data : List UInt8) : ClientM E Unit :=
  Action.forRange r.h fun y => do
    let row ← int32 (y * f.rowBytes r.w)
    Action.forRange r.w fun x => do
      let index ← if f.onebit then do
          let b ← byteOf data (row + x / 8)
          pure (b.toNat / 2 ^ (7 - x % 8) % 2)
        else do
          let b ← byteOf data (row + x)
          pure (b.toNat % f.palette.length)
      let color ← paletteAt f.palette index
      setPixel (r.x + x) (r.y + y) color

/-- `(row[…] + predicted) & 0xff` for one component of one pixel. -/
def gradientByte (coded left above aboveLeft : UInt8) : UInt8 :=
  let sum := left.toNat + above.toNat
  let predicted := if sum < aboveLeft.toNat then 0 else min (sum - aboveLeft.toNat) 255
  UInt8.ofNat (coded.toNat + predicted)

/-- One row of the gradient filter: `prev` and `cur` hold the components of the row above
and of this row up to pixel `x`. -/
def gradientPixel (row : Nat) (prev data : List UInt8) (x : Nat) (cur : List UInt8) (k : Nat) :
    ClientM E UInt8 := do
  let coded ← byteOf data (row + (x * 3 + k))
  let above ← byteOf prev (x * 3 + k)
  if x = 0 then pure (gradientByte coded 0 above 0)
  else
    let left ← byteOf cur ((x - 1) * 3 + k)
    let aboveLeft ← byteOf prev ((x - 1) * 3 + k)
    pure (gradientByte coded left above aboveLeft)

def gradientRows (r : Rect) (rowBytes : Nat) (data : List UInt8) : ClientM E Unit := do
  let _ ← Action.foldRange (fun y prev => do
    let row ← int32 (y * rowBytes)
    Action.foldRange (fun x cur => do
      let red ← gradientPixel row prev data x cur 0
      let green ← gradientPixel row prev data x cur 1
      let blue ← gradientPixel row prev data x cur 2
      setPixel (r.x + x) (r.y + y) (qRgb red green blue)
      pure (cur ++ [red, green, blue])) r.w []) r.h (List.replicate (r.w * 3) 0)
  pure ()

/-- The pixels of a basic rectangle, through its filter. -/
def tightPixels (r : Rect) (f : TightFilter) (data : List UInt8) : ClientM E Unit :=
  if f.filter = 1 then paletteRows r f data
  else if f.filter = 2 then gradientRows r (f.rowBytes r.w) data
  else rgbRows r (f.rowBytes r.w) data

/-- A rectangle of 12 bytes or more: compressed, behind its length. -/
def tightCompressed (r : Rect) (f : TightFilter) (stream : Fin 4) (dataSize : Nat) : ClientM E Bool := do
  let header ← compactLength f.pos
  match header with
  | none => pure false
  | some (n, length) =>
    need (f.pos + n + length) do
      let state ← tightStream stream
      match state with
      | none => failStep "zlib failed"
      | some state =>
        let input ← bytes (f.pos + n) length
        match state.zs with
        | none => failStep "The server sent corrupt compressed data"
        | some zs =>
          let chunk := inflateExact zs input dataSize
          setStream stream ⟨some chunk.stream⟩
          if !chunk.ok then failStep "The server sent corrupt compressed data"
          else
            tightPixels r f chunk.out
            consume (f.pos + n + length)
            pure true

/-- A rectangle of less than 12 bytes, which may be none at all: sent as it is. -/
def tightPlain (r : Rect) (f : TightFilter) (dataSize : Nat) : ClientM E Bool :=
  need (f.pos + dataSize) do
    let data ← bytes f.pos dataSize
    tightPixels r f data
    consume (f.pos + dataSize)
    pure true

def tightFiltered (header : FilterHeader) (stream : Fin 4) : ClientM E Bool := do
  match header with
  | .unsupported => failStep "The server used an unsupported Tight filter"
  | .ok f =>
    let rect ← Action.gets fun c => c.rect
    let rowBytes ← int32 (f.rowBytes rect.w)
    let dataSize ← int32 (rowBytes * rect.h)
    if dataSize < 12 then tightPlain rect f dataSize else tightCompressed rect f stream dataSize

def tightBasic (control : UInt8) : ClientM E Bool := do
  let header ← tightFilter control
  match header with
  | none => pure false
  | some header => tightFiltered header ⟨control.toNat / 16 % 4, Nat.mod_lt _ (by decide)⟩

/-- Behind the stream resets. -/
def tightKind (control : UInt8) : ClientM E Bool :=
  let kind := control.toNat / 16
  if kind = 8 then tightFill
  else if kind = 9 then tightJpeg
  else if kind > 9 then failStep "The server used an unsupported Tight sub-encoding"
  else tightBasic control

def stepTight : ClientM E Bool :=
  need 1 do
    let control ← u8 0
    let ok ← resetStreams control
    if ok then tightKind control else pure false

end LvdTerm.Vnc
