import Mathlib.Algebra.Order.Ring.Nat
import LvdTerm.Lib.Action

/-!
# VNC client: data types

`src/transports/vnc/VncClient.{h,cpp}`. Geometry follows `QRect` on the rectangles the
protocol can name (16-bit origin and size, never negative); an image is its size and
its pixels. zlib, the JPEG decoder, DES and the UTF-8 decoder are not part of the
sources, so the client is parameterised by them (`Env`), with the documented
behaviour the client relies on as fields.
-/
namespace LvdTerm.Vnc

/-- Operations the C++ client must never perform. -/
inductive Fault where
  | intOverflow    -- a 32-bit size computation leaves the range of `int`
  | runOverflow    -- the ZRLE run-length accumulator leaves it
  | bufferRead     -- a byte of `m_buf` that has not arrived
  | inflatedRead   -- a byte past the end of an inflated or decoded buffer
  | pixelWrite     -- outside the image written to
  | uninitialised  -- an entry of a ZRLE palette that was never read
  | nullSocket
  deriving DecidableEq, Repr

abbrev QRgb := UInt32

def qRgb (r g b : UInt8) : QRgb :=
  (0xff000000 : UInt32) ||| (r.toUInt32 <<< 16) ||| (g.toUInt32 <<< 8) ||| b.toUInt32

/-! ## Geometry -/

structure Rect where
  x : Nat
  y : Nat
  w : Nat
  h : Nat
  deriving DecidableEq, Repr

namespace Rect

/-- `QRect()` and every other rectangle with neither width nor height. -/
def isNull (r : Rect) : Bool := r.w = 0 ∧ r.h = 0

def isValid (r : Rect) : Bool := 0 < r.w ∧ 0 < r.h

/-- `QRect::contains`: a null rectangle is contained in none, an empty one may be. -/
def contains (a r : Rect) : Bool :=
  !a.isNull && !r.isNull &&
    decide (a.x ≤ r.x ∧ r.x + r.w ≤ a.x + a.w ∧ a.y ≤ r.y ∧ r.y + r.h ≤ a.y + a.h)

def united (a r : Rect) : Rect :=
  if a.isNull then r
  else if r.isNull then a
  else
    let x := min a.x r.x
    let y := min a.y r.y
    ⟨x, y, max (a.x + a.w) (r.x + r.w) - x, max (a.y + a.h) (r.y + r.h) - y⟩

def intersected (a r : Rect) : Rect :=
  if a.isNull || r.isNull then ⟨0, 0, 0, 0⟩
  else if a.x + 1 > r.x + r.w ∨ r.x + 1 > a.x + a.w ∨ a.y + 1 > r.y + r.h ∨ r.y + 1 > a.y + a.h then
    ⟨0, 0, 0, 0⟩
  else
    let x := max a.x r.x
    let y := max a.y r.y
    ⟨x, y, min (a.x + a.w) (r.x + r.w) - x, min (a.y + a.h) (r.y + r.h) - y⟩

end Rect

structure Image where
  width : Nat
  height : Nat
  pixel : Nat → Nat → QRgb

namespace Image

def isNull (i : Image) : Bool := i.width = 0 ∨ i.height = 0

def null : Image := ⟨0, 0, fun _ _ => 0⟩

def rect (i : Image) : Rect := ⟨0, 0, i.width, i.height⟩

def set (i : Image) (x y : Nat) (color : QRgb) : Image :=
  { i with pixel := fun x' y' => if x' = x ∧ y' = y then color else i.pixel x' y' }

/-- `QImage(size)` filled with `Qt::black`. -/
def black (width height : Nat) : Image := ⟨width, height, fun _ _ => 0xff000000⟩

/-- `QImage::copy`: a null rectangle stands for the whole image. -/
def copy (i : Image) (r : Rect) : Image :=
  if r.isNull then i
  else if r.w = 0 ∨ r.h = 0 then null
  else ⟨r.w, r.h, fun x y => i.pixel (r.x + x) (r.y + y)⟩

@[simp] theorem set_width (i : Image) (x y : Nat) (c : QRgb) : (i.set x y c).width = i.width := rfl

@[simp] theorem set_height (i : Image) (x y : Nat) (c : QRgb) :
    (i.set x y c).height = i.height := rfl

/-- A rectangle the image contains ends inside the image. -/
theorem le_of_rect_contains {i : Image} {r : Rect} (h : i.rect.contains r = true) :
    r.x + r.w ≤ i.width ∧ r.y + r.h ≤ i.height := by
  unfold Rect.contains at h
  rw [Bool.and_eq_true] at h
  obtain ⟨_, hx, _, hy⟩ := of_decide_eq_true h.2
  simp only [rect, Nat.zero_add] at hx hy
  exact ⟨hx, hy⟩

end Image

/-! ## What the client is linked against -/

inductive ZResult where
  | ok | streamEnd | bufError | error
  deriving DecidableEq, Repr

/-- One call of `inflate(&zs, Z_SYNC_FLUSH)`: the input left over and what was written. -/
structure Inflated (S : Type) where
  rc : ZResult
  stream : S
  availIn : List UInt8
  output : List UInt8

def Inflated.goesOn {S : Type} (r : Inflated S) (availOut : Nat) : Prop :=
  r.rc ≠ .error ∧ r.rc ≠ .streamEnd ∧ ¬ (r.availIn = [] ∧ r.output.length ≠ availOut)

structure Zlib where
  Stream : Type
  inflateInit : Option Stream
  inflateReset : Stream → Option Stream
  inflate : Stream → List UInt8 → Nat → Inflated Stream
  /-- A bound on the calls that use up this input. -/
  calls : Stream → List UInt8 → Nat
  output_le : ∀ s input n, (inflate s input n).output.length ≤ n
  progress : ∀ s input n, 0 < n → (inflate s input n).goesOn n →
    calls (inflate s input n).stream (inflate s input n).availIn < calls s input
  init_reset : ∀ s, inflateInit = some s → inflateReset s = some s
  reset_reset : ∀ s t, inflateReset s = some t → inflateReset t = some t

structure Jpeg where
  width : Nat
  height : Nat
  rgb : List UInt8

structure Env where
  zlib : Zlib
  decodeJpegToRgb : List UInt8 → Option Jpeg
  /-- `DES_ecb_encrypt` of one 8-byte block under an 8-byte key. -/
  desEncrypt : List UInt8 → List UInt8 → List UInt8
  fromUtf8 : List UInt8 → String
  jpeg_size : ∀ data j, decodeJpegToRgb data = some j → j.rgb.length = j.width * j.height * 3

/-- zlib on streams that hold no data: an empty input needs more, any other is corrupt. -/
def Zlib.bare : Zlib where
  Stream := Unit
  inflateInit := some ()
  inflateReset _ := some ()
  inflate s input _ := ⟨if input = [] then .bufError else .error, s, input, []⟩
  calls _ _ := 0
  output_le _ _ _ := Nat.zero_le _
  progress _ input n hn h := by
    obtain ⟨hrc, _, hin⟩ := h
    by_cases hi : input = []
    · exact absurd ⟨hi, fun h0 => by simp only [List.length_nil] at h0; omega⟩ hin
    · exact absurd (if_neg hi) hrc
  init_reset _ h := h
  reset_reset _ _ h := h

def Env.bare : Env where
  zlib := .bare
  decodeJpegToRgb _ := none
  desEncrypt _ block := block
  fromUtf8 _ := ""
  jpeg_size _ _ h := by cases h

end LvdTerm.Vnc
