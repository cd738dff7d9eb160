import LvdTerm.Vnc.Tight
import LvdTerm.Vnc.ZrleFormat

/-!
# VNC client: the Tight format

What an encoder writes for a rectangle of basic compression: pixels through one of three filters,
sent as they are if they are few and as a segment of one of four zlib streams otherwise. zlib itself
is whatever deflates what the client's zlib inflates (`Deflater`).
-/
namespace LvdTerm.Vnc

/-! ## Filters -/

/-- A TPIXEL. -/
def Rgb.tpixel (c : Rgb) : List UInt8 := [c.r, c.g, c.b]

@[simp] theorem Rgb.tpixel_length (c : Rgb) : c.tpixel.length = 3 := rfl

/-- One of the three components. -/
def Rgb.part (c : Rgb) (k : Nat) : UInt8 := c.tpixel.getD k 0

/-- Rows of bytes, top to bottom. -/
def rowsOf (h : Nat) (row : Nat → List UInt8) : List UInt8 := (List.range h).flatMap row

/-- Pixels of three bytes. -/
def pixelRow (w : Nat) (pixel : Nat → List UInt8) : List UInt8 := (List.range w).flatMap pixel

/-- The neighbours of a component, zero outside the rectangle. -/
def leftOf (picture : Nat → Nat → Rgb) (k x y : Nat) : UInt8 := if x = 0 then 0 else (picture (x - 1) y).part k

def aboveOf (picture : Nat → Nat → Rgb) (k x y : Nat) : UInt8 := if y = 0 then 0 else (picture x (y - 1)).part k

def aboveLeftOf (picture : Nat → Nat → Rgb) (k x y : Nat) : UInt8 :=
  if x = 0 ∨ y = 0 then 0 else (picture (x - 1) (y - 1)).part k

/-- Left and above less what both have, clamped to a byte. -/
def predicted (picture : Nat → Nat → Rgb) (k x y : Nat) : Nat :=
  (max 0 (min 255 ((leftOf picture k x y).toNat + (aboveOf picture k x y).toNat - (aboveLeftOf picture k x y).toNat : Int))).toNat

/-- What the prediction is off by, modulo 256. -/
def residual (picture : Nat → Nat → Rgb) (k x y : Nat) : UInt8 :=
  UInt8.ofNat (((picture x y).part k).toNat + 256 - predicted picture k x y)

/-- A `w` by `h` picture through a filter: what stands behind the control byte, and the data. The filter byte may be left out for
copied pixels. -/
inductive TightCode (w h : Nat) (picture : Nat → Nat → Rgb) : List UInt8 → List UInt8 → Prop where
  | copy (header : List UInt8) (hheader : header = [] ∨ header = [0]) :
      TightCode w h picture header (rowsOf h fun y => pixelRow w fun x => (picture x y).tpixel)
  | bits (palette : List Rgb) (hsize : palette.length = 2) (index : Nat → Nat → Nat) (hindex : ∀ y x, index y x < 2)
      (hpicture : ∀ y < h, ∀ x < w, palette[index y x]? = some (picture x y)) :
      TightCode w h picture (1 :: 1 :: palette.flatMap Rgb.tpixel) (packedRows 1 w h index)
  | indexed (palette : List Rgb) (hsize : 3 ≤ palette.length ∧ palette.length ≤ 256) (index : Nat → Nat → Nat)
      (hpicture : ∀ y < h, ∀ x < w, palette[index y x]? = some (picture x y)) :
      TightCode w h picture (1 :: UInt8.ofNat (palette.length - 1) :: palette.flatMap Rgb.tpixel)
        (rowsOf h fun y => (List.range w).map fun x => UInt8.ofNat (index y x))
  | gradient : TightCode w h picture [2]
      (rowsOf h fun y => pixelRow w fun x => [residual picture 0 x y, residual picture 1 x y, residual picture 2 x y])

/-! ## Streams -/

/-- An encoder's zlib: `deflates` says what it may write for some data, `follows` that a stream of the client has inflated
what it has written so far. -/
structure Deflater (z : Zlib) where
  State : Type
  fresh : State
  deflates : State → List UInt8 → List UInt8 → State → Prop
  follows : z.Stream → State → Prop
  init : ∃ zs, z.inflateInit = some zs ∧ follows zs fresh
  reset : ∀ zs s, follows zs s → ∃ zs', z.inflateReset zs = some zs' ∧ follows zs' fresh
  /-- Given room for the data of a segment, inflating the segment gives the data. -/
  inflates : ∀ zs s data segment s', follows zs s → deflates s data segment s' →
    (z.inflate zs segment data.length).rc ≠ .error ∧ (z.inflate zs segment data.length).output = data ∧
      follows (z.inflate zs segment data.length).stream s'

/-- The client's streams are those of the encoder. A stream that has not been used does not exist yet. -/
def InSync {E : Env} (D : Deflater E.zlib) (states : Fin 4 → D.State) (streams : Fin 4 → Option (InflateState E)) : Prop :=
  ∀ i, (streams i = none ∧ states i = D.fresh) ∨ ∃ zs, streams i = some ⟨some zs⟩ ∧ D.follows zs (states i)

/-- A length in one to three bytes, seven bits each, the low ones first. -/
inductive Compact : Nat → List UInt8 → Prop where
  | one (a : Nat) (ha : a < 128) : Compact a [UInt8.ofNat a]
  | two (a b : Nat) (ha : a < 128) (hb : b < 128) : Compact (a + b * 2 ^ 7) [UInt8.ofNat (a + 128), UInt8.ofNat b]
  | three (a b c : Nat) (ha : a < 128) (hb : b < 128) (hc : c < 256) :
      Compact (a + b * 2 ^ 7 + c * 2 ^ 14) [UInt8.ofNat (a + 128), UInt8.ofNat (b + 128), UInt8.ofNat c]

/-- Resets in the low four bits, then the stream, then whether there is a filter byte. -/
def tightControl (resets : Fin 16) (stream : Fin 4) (header : List UInt8) : UInt8 :=
  UInt8.ofNat (resets.val + 16 * stream.val + if header = [] then 0 else 64)

section Transport

variable {z : Zlib} (D : Deflater z)

/-- The encoder's streams after resets. -/
def afterResets (resets : Fin 16) (states : Fin 4 → D.State) (i : Fin 4) : D.State :=
  if resets.val / 2 ^ i.val % 2 = 1 then D.fresh else states i

/-- How filtered data is sent: below twelve bytes as it is. -/
inductive TightSent (states : Fin 4 → D.State) (header data : List UInt8) : List UInt8 → (Fin 4 → D.State) → Prop where
  | plain (resets : Fin 16) (stream : Fin 4) (small : data.length < 12) :
      TightSent states header data (tightControl resets stream header :: (header ++ data)) (afterResets D resets states)
  | compressed (resets : Fin 16) (stream : Fin 4) (large : 12 ≤ data.length) {segment length : List UInt8} {s' : D.State}
      (hdeflates : D.deflates (afterResets D resets states stream) data segment s') (hlength : Compact segment.length length) :
      TightSent states header data (tightControl resets stream header :: (header ++ (length ++ segment)))
        (Function.update (afterResets D resets states) stream s')

end Transport

/-- Every length up to 22 bits has such bytes. -/
theorem compact_exists {n : Nat} (h : n < 2 ^ 22) : ∃ bytes, Compact n bytes := by
  by_cases h₁ : n < 128
  · exact ⟨_, .one n h₁⟩
  · by_cases h₂ : n < 2 ^ 14
    · have htwo := Compact.two (n % 128) (n / 128) (Nat.mod_lt _ (by decide)) (by omega)
      have hn : n % 128 + n / 128 * 2 ^ 7 = n := by omega
      rw [hn] at htwo
      exact ⟨_, htwo⟩
    · have hthree := Compact.three (n % 128) (n / 128 % 128) (n / 2 ^ 14) (Nat.mod_lt _ (by decide)) (Nat.mod_lt _ (by decide))
        (by omega)
      have hn : n % 128 + n / 128 % 128 * 2 ^ 7 + n / 2 ^ 14 * 2 ^ 14 = n := by omega
      rw [hn] at hthree
      exact ⟨_, hthree⟩

end LvdTerm.Vnc
