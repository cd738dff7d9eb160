import LvdTerm.Vnc.Client

/-!
# VNC client: ZRLE tiles

The tile loops of `VncClient::stepZrle` on an inflated payload. The payload is the
list of bytes from `pos` on, so `need(n)` is a length test. Pixel writes are kept in
the order in which the code makes them; a colour is `none` when it is read from a
palette entry that was never filled (sub-encodings 127 and 255 read no palette, yet
draw from one). `run` and `done` are 32-bit `int`s in the source and so here: an
addition that leaves their range is a fault.
-/
namespace LvdTerm.Vnc

def intMax : Int := 2 ^ 31 - 1

structure Write where
  x : Nat
  y : Nat
  color : Option QRgb
  deriving DecidableEq, Repr

structure Tile where
  x0 : Nat
  y0 : Nat
  tw : Nat
  th : Nat
  deriving DecidableEq, Repr

namespace Tile

def total (t : Tile) : Int := t.tw * t.th

/-- The position of pixel `i` of the tile in reading order. -/
def pos (t : Tile) (i : Nat) : Nat × Nat := (t.x0 + i % t.tw, t.y0 + i / t.tw)

def readingOrder (t : Tile) : List (Nat × Nat) := (List.range (t.tw * t.th)).map t.pos

def Contains (t : Tile) (w : Write) : Prop :=
  t.x0 ≤ w.x ∧ w.x < t.x0 + t.tw ∧ t.y0 ≤ w.y ∧ w.y < t.y0 + t.th

end Tile

inductive TileEnd where
  | ok (rest : List UInt8)
  | corrupt
  | fault (f : Fault)
  deriving DecidableEq, Repr

structure TileResult where
  writes : List Write
  finish : TileEnd
  deriving DecidableEq, Repr

/-! ## Raw, solid and packed tiles -/

/-- `cpixel()`, after a `need` that covers it. -/
def cpixel : List UInt8 → Option (QRgb × List UInt8)
  | b :: g :: r :: d => some (qRgb r g b, d)
  | _ => none

def readPalette : Nat → List UInt8 → Option (List QRgb × List UInt8)
  | 0, d => some ([], d)
  | n + 1, d => do
    let (c, d) ← cpixel d
    let (cs, d) ← readPalette n d
    pure (c :: cs, d)

/-- The pixels from number `i` on in reading order, each from its own CPIXEL. -/
def rawPixels (t : Tile) : Nat → Nat → List UInt8 → List Write → TileResult
  | 0, _, d, ws => ⟨ws, .ok d⟩
  | n + 1, i, d, ws =>
    match cpixel d with
    | none => ⟨ws, .fault .inflatedRead⟩
    | some (c, d) => rawPixels t n (i + 1) d (ws ++ [⟨(t.pos i).1, (t.pos i).2, some c⟩])

def solidPixels (t : Tile) (c : Option QRgb) : List Write :=
  t.readingOrder.map fun p => ⟨p.1, p.2, c⟩

def packedBits (paletteSize : Nat) : Nat :=
  if paletteSize = 2 then 1 else if paletteSize ≤ 4 then 2 else 4

/-- `row[x * bits / 8] >> shift & mask`, then `palette[index % paletteSize]`. -/
def packedPixels (t : Tile) (palette : List QRgb) (paletteSize : Nat) (d : List UInt8) :
    Nat → Nat → List Write → TileResult
  | 0, _, ws => ⟨ws, .ok (d.drop ((t.tw * packedBits paletteSize + 7) / 8 * t.th))⟩
  | n + 1, i, ws =>
    let bits := packedBits paletteSize
    let rowBytes := (t.tw * bits + 7) / 8
    let x := i % t.tw
    let y := i / t.tw
    let shift := 8 - bits * (x % (8 / bits) + 1)
    match d[y * rowBytes + x * bits / 8]? with
    | none => ⟨ws, .fault .inflatedRead⟩
    | some b =>
      let index := b.toNat / 2 ^ shift % 2 ^ bits
      packedPixels t palette paletteSize d n (i + 1)
        (ws ++ [⟨(t.pos i).1, (t.pos i).2, palette[index % paletteSize]?⟩])

/-! ## Run-length tiles -/

/-- The variables of the run-length loop. -/
structure Rle where
  x : Nat
  y : Nat
  done : Int
  d : List UInt8
  writes : List Write
  deriving DecidableEq, Repr

/-- One pixel, and the step to the next position (`if (++x == tw) { x = 0; ++y; }`). -/
def Rle.put (t : Tile) (c : Option QRgb) (s : Rle) : Rle :=
  { s with
    x := if s.x + 1 = t.tw then 0 else s.x + 1
    y := if s.x + 1 = t.tw then s.y + 1 else s.y
    writes := s.writes ++ [⟨t.x0 + s.x, t.y0 + s.y, c⟩] }

def Rle.putN (t : Tile) (c : Option QRgb) : Nat → Rle → Rle
  | 0, s => s
  | n + 1, s => Rle.putN t c n (s.put t c)

inductive Run where
  | ok (run : Int) (rest : List UInt8)
  | short
  | overflow
  deriving DecidableEq, Repr

/-- `for (;;) { if (!need(1)) break; run += b; if (b != 255) break; }` -/
def readRun (run : Int) : List UInt8 → Run
  | [] => .short
  | b :: d =>
    if run + b.toNat > intMax then .overflow
    else if b ≠ 255 then .ok (run + b.toNat) d
    else readRun (run + b.toNat) d

inductive RleNext where
  | more (s : Rle)
  | corrupt (s : Rle)
  | fault (s : Rle) (f : Fault)
  deriving DecidableEq, Repr

/-- From `int run = 1` to `done += run`. -/
def rleRun (t : Tile) (c : Option QRgb) (s : Rle) : RleNext :=
  match readRun 1 s.d with
  | .short => .corrupt { s with d := [] }
  | .overflow => .fault s .runOverflow
  | .ok run d =>
    if s.done + run > intMax then .fault s .runOverflow
    else if s.done + run > t.total then .corrupt { s with d := d }
    else .more { (Rle.putN t c run.toNat { s with d := d }) with done := s.done + run }

/-- One round of `while (done < total && ok)`. -/
def rleStep (t : Tile) (palette : List QRgb) (paletteSize : Nat) (s : Rle) : RleNext :=
  if paletteSize = 0 then
    match cpixel s.d with
    | none => .corrupt s
    | some (c, d) => rleRun t (some c) { s with d := d }
  else
    match s.d with
    | [] => .corrupt s
    | index :: d =>
      let c := palette[index.toNat % 128 % paletteSize]?
      if index < 128 then .more { (s.put t c) with done := s.done + 1, d := d }
      else rleRun t c { s with d := d }

/-- The loop; every round uses up a byte, so the length of the payload bounds it. -/
def rleLoop (t : Tile) (palette : List QRgb) (paletteSize : Nat) : Nat → Rle → TileResult
  | 0, s => ⟨s.writes, .corrupt⟩
  | fuel + 1, s =>
    if s.done < t.total then
      match rleStep t palette paletteSize s with
      | .more s => rleLoop t palette paletteSize fuel s
      | .corrupt s => ⟨s.writes, .corrupt⟩
      | .fault s f => ⟨s.writes, .fault f⟩
    else ⟨s.writes, .ok s.d⟩

def Rle.start (d : List UInt8) : Rle := ⟨0, 0, 0, d, []⟩

/-! ## Tiles -/

/-- The sub-encoding byte and the palette behind it. -/
def tileHeader : List UInt8 → Option (UInt8 × List QRgb × List UInt8)
  | [] => none
  | sub :: d =>
    let paletteSize := sub.toNat % 128
    if 0 < paletteSize ∧ paletteSize ≠ 127 then
      if d.length < paletteSize * 3 then none
      else (readPalette paletteSize d).map fun p => (sub, p)
    else some (sub, [], d)

/-- `need(n)` for a size computed in `int`, and what is done when it holds. -/
def needSize (n : Nat) (d : List UInt8) (r : TileResult) : TileResult :=
  if 2 ^ 31 ≤ n then ⟨[], .fault .intOverflow⟩
  else if d.length < n then ⟨[], .corrupt⟩
  else r

/-- One tile, from its sub-encoding byte on. -/
def zrleTile (t : Tile) (d : List UInt8) : TileResult :=
  match tileHeader d with
  | none => ⟨[], .corrupt⟩
  | some (sub, palette, d) =>
    let paletteSize := sub.toNat % 128
    if sub < 128 then
      if paletteSize = 0 then
        needSize (t.tw * t.th * 3) d (rawPixels t (t.tw * t.th) 0 d [])
      else if paletteSize = 1 then ⟨solidPixels t palette[0]?, .ok d⟩
      else
        needSize ((t.tw * packedBits paletteSize + 7) / 8 * t.th) d
          (packedPixels t palette paletteSize d (t.tw * t.th) 0 [])
    else rleLoop t palette paletteSize (d.length + 1) (.start d)

/-- `for (ty…) for (tx…)`: the 64x64 tiles of a rectangle, clipped at its edges. -/
def zrleTiles (r : Rect) : List Tile :=
  (List.range ((r.h + 63) / 64)).flatMap fun j =>
    (List.range ((r.w + 63) / 64)).map fun i =>
      ⟨r.x + 64 * i, r.y + 64 * j, min 64 (r.w - 64 * i), min 64 (r.h - 64 * j)⟩

def zrleDecode : List Tile → List UInt8 → TileResult
  | [], d => ⟨[], .ok d⟩
  | t :: ts, d =>
    let r := zrleTile t d
    match r.finish with
    | .ok rest =>
      let r' := zrleDecode ts rest
      ⟨r.writes ++ r'.writes, r'.finish⟩
    | e => ⟨r.writes, e⟩

/-- Every tile `zrleDecode` gets to, with the payload it starts from. -/
def zrleVisited : List Tile → List UInt8 → List (Tile × List UInt8)
  | [], _ => []
  | t :: ts, d =>
    (t, d) :: match (zrleTile t d).finish with
      | .ok rest => zrleVisited ts rest
      | _ => []

end LvdTerm.Vnc
