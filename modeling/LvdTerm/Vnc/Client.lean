import LvdTerm.Vnc.Types

/-!
# VNC client: state and primitive operations

The members of `VncClient` that its protocol code reads, and the small functions
every step is written in: big-endian reads from the front of `m_buf`, `consume`,
socket writes and signals (kept as one log, in order), single pixel writes into
`m_work`. `buf` is `m_buf` from `m_pos` on: the bytes before `m_pos` are never
looked at again. Of `m_stats` only the number of finished updates is kept.
-/
namespace LvdTerm.Vnc

open Lib

inductive Stage where
  | idle | version | securityTypes | authChallenge | securityResult | securityReason
  | serverInit | running
  deriving DecidableEq, Repr

/-- What leaves the client: bytes for the socket and signals, in order. -/
inductive Event where
  | write (data : List UInt8)
  | ready
  | framebufferChanged (dirty : Rect)
  | framebufferResized (width height : Nat)
  | clipboardTextReceived (text : List UInt8)
  | bell
  | failed (message : String)
  | closed
  deriving DecidableEq, Repr

/-- `VncClient::InflateState`; the stream is there once `inflateInit` succeeded. -/
structure InflateState (E : Env) where
  zs : Option E.zlib.Stream

structure VncClient (E : Env) where
  socket : Bool
  buf : List UInt8
  stage : Stage
  /-- What the password provider will answer, if there is one (`none`: cancelled). -/
  passwordProvider : Option (Option String)
  password : String
  minor : Nat
  maxMinor : Nat
  encodings : List Int
  securityType : Nat
  failedAlready : Bool
  /-- `m_stats.updates` -/
  updates : Nat
  fb : Image
  work : Image
  desktopName : String
  dirty : Rect
  tightStreams : Fin 4 → Option (InflateState E)
  zrleStream : Option (InflateState E)
  lastRectMode : Bool
  resized : Bool
  rectsLeft : Int
  inRect : Bool
  rect : Rect
  encoding : Int
  tileX : Nat
  tileY : Nat
  hexBg : QRgb
  hexFg : QRgb
  events : List Event

/-- A newly constructed client. -/
def VncClient.new (E : Env) (provider : Option (Option String)) (encodings : List Int) :
    VncClient E where
  socket := false
  buf := []
  stage := .idle
  passwordProvider := provider
  password := ""
  minor := 3
  maxMinor := 8
  encodings := encodings
  securityType := 0
  failedAlready := false
  updates := 0
  fb := .null
  work := .null
  desktopName := ""
  dirty := ⟨0, 0, 0, 0⟩
  tightStreams := fun _ => none
  zrleStream := none
  lastRectMode := false
  resized := false
  rectsLeft := 0
  inRect := false
  rect := ⟨0, 0, 0, 0⟩
  encoding := 0
  tileX := 0
  tileY := 0
  hexBg := qRgb 0 0 0
  hexFg := qRgb 255 255 255
  events := []

abbrev ClientM (E : Env) (α : Type) := Action Fault (VncClient E) α

variable {E : Env}

/-! ## Reading the buffer -/

def avail : ClientM E Nat := Action.gets fun c => c.buf.length

/-- `if (avail() < n) return false;` in front of the rest of a step. -/
def need (n : Nat) (m : ClientM E Bool) : ClientM E Bool := do
  let a ← avail
  if a < n then pure false else m

/-- The same in front of looking ahead: `none` for data that has not arrived. -/
def peek {α : Type} (n : Nat) (m : ClientM E (Option α)) : ClientM E (Option α) := do
  let a ← avail
  if a < n then pure none else m

def u8 (off : Nat) : ClientM E UInt8 := fun c =>
  match c.buf[off]? with
  | some b => .ok (b, c)
  | none => .error .bufferRead

def u16 (off : Nat) : ClientM E Nat := do
  let hi ← u8 off
  let lo ← u8 (off + 1)
  pure (hi.toNat * 256 + lo.toNat)

def u32 (off : Nat) : ClientM E Nat := do
  let hi ← u16 off
  let lo ← u16 (off + 2)
  pure (hi * 65536 + lo)

/-- `m_buf.mid(m_pos + off, n)`, and the raw pointers handed to zlib and the JPEG decoder. -/
def bytes (off n : Nat) : ClientM E (List UInt8) := fun c =>
  if off + n ≤ c.buf.length then .ok ((c.buf.drop off).take n, c) else .error .bufferRead

/-- Wire pixel: B, G, R, pad. -/
def pixelAt (off : Nat) : ClientM E QRgb := do
  let b ← u8 off
  let g ← u8 (off + 1)
  let r ← u8 (off + 2)
  let pad ← u8 (off + 3)
  pure ((0xff000000 : UInt32) ||| (pad.toUInt32 <<< 24) ||| (r.toUInt32 <<< 16) |||
    (g.toUInt32 <<< 8) ||| b.toUInt32)

def consume (n : Nat) : ClientM E Unit := fun c =>
  if n ≤ c.buf.length then .ok ((), { c with buf := c.buf.drop n }) else .error .bufferRead

/-- A size the code computes in `int`. -/
def int32 (n : Nat) : ClientM E Nat := fun c =>
  if n < 2 ^ 31 then .ok (n, c) else .error .intOverflow

/-! ## Output -/

def emit (e : Event) : ClientM E Unit :=
  Action.modify fun c => { c with events := c.events ++ [e] }

/-- `m_socket->write(data)`. -/
def write (data : List UInt8) : ClientM E Unit := fun c =>
  if c.socket then .ok ((), { c with events := c.events ++ [.write data] }) else .error .nullSocket

def setStage (stage : Stage) : ClientM E Unit := Action.modify fun c => { c with stage := stage }

def close : ClientM E Unit := Action.modify fun c => { c with stage := .idle, socket := false }

def fail (message : String) : ClientM E Unit := fun c =>
  if c.failedAlready then .ok ((), c)
  else (do
    close
    emit (.failed message)
    emit .closed : ClientM E Unit) { c with failedAlready := true }

/-- `fail(message); return false;` -/
def failStep (message : String) : ClientM E Bool := do
  fail message
  pure false

def putU16 (v : Nat) : List UInt8 := [UInt8.ofNat (v / 256), UInt8.ofNat v]

def putU32 (v : Nat) : List UInt8 := putU16 (v / 65536) ++ putU16 v

/-! ## Pixels -/

/-- One pixel of `m_work` through `scanLine`. -/
def setPixel (x y : Nat) (color : QRgb) : ClientM E Unit := fun c =>
  if x < c.work.width ∧ y < c.work.height then .ok ((), { c with work := c.work.set x y color })
  else .error .pixelWrite

def fillRect (x y w h : Nat) (color : QRgb) : ClientM E Unit :=
  Action.forRange h fun row => Action.forRange w fun col => setPixel (x + col) (y + row) color

def addDirty (r : Rect) : ClientM E Unit :=
  Action.modify fun c => { c with dirty := c.dirty.united r }

/-- An index into an inflated or decoded buffer. -/
def byteOf (data : List UInt8) (i : Nat) : ClientM E UInt8 := fun c =>
  match data[i]? with
  | some b => .ok (b, c)
  | none => .error .inflatedRead

end LvdTerm.Vnc
