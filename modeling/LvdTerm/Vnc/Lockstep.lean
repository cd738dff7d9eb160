import LvdTerm.Lib.TwoRuns
import LvdTerm.Vnc.Session
import LvdTerm.Vnc.ZrleSafety

/-!
# VNC client: two clients decoding the same rectangle

Two clients that have the same rectangle, the same data and the same pixels to write decode it in
the same way, whatever else they differ in. `Lockstep` is what such a comparison has to provide; the
decoders are gone through once, for every comparison.
-/
namespace LvdTerm.Vnc

open Lib Lib.Action

variable {E : Env} {α β : Type} {c c' : VncClient E}

/-- Two clients with the same data in front of them: neither reading it nor failing tells them apart.
A write to the socket is another matter. -/
structure Twins (E : Env) where
  rel : VncClient E → VncClient E → Prop
  fault : Fault → Prop
  faults : ∀ f, f ≠ .nullSocket → fault f
  buf : ∀ {c c'}, rel c c' → c.buf = c'.buf
  use : ∀ {c c'} (buf : List UInt8), rel c c' → rel { c with buf := buf } { c' with buf := buf }
  fail : ∀ message, InStep fault rel (Vnc.fail message)

/-- What the decoders read and write. -/
structure Workbench where
  work : Image
  rect : Rect
  dirty : Rect
  tileX : Nat
  tileY : Nat
  hexBg : QRgb
  hexFg : QRgb

def workbench (c : VncClient E) : Workbench := ⟨c.work, c.rect, c.dirty, c.tileX, c.tileY, c.hexBg, c.hexFg⟩

def Workbench.onto (w : Workbench) (c : VncClient E) : VncClient E :=
  { c with work := w.work, rect := w.rect, dirty := w.dirty, tileX := w.tileX, tileY := w.tileY, hexBg := w.hexBg,
           hexFg := w.hexFg }

/-- Two clients told apart by none of the operations that decoding is made of. The zlib streams are
left to the comparison, and so is what happens outside the workbench. -/
structure Lockstep (E : Env) extends Twins E where
  view : ∀ {c c'}, rel c c' → workbench c = workbench c'
  put : ∀ {c c'} (w : Workbench), rel c c' → rel (w.onto c) (w.onto c')
  emit : ∀ event, InStep fault rel (Vnc.emit event)
  alloc : ∀ width height, InStep fault rel (allocFramebuffer width height)
  resize : InStep fault rel (Action.modify fun c => { c with resized := true })
  resetIfAsked : ∀ control i, InStep fault rel (Vnc.resetIfAsked control i)
  tightStream : ∀ i, InStep fault rel (Vnc.tightStream i)
  setStream : ∀ i s, InStep fault rel (Vnc.setStream i s)
  zrleState : InStep fault rel Vnc.zrleState
  setZrleStream : ∀ s, InStep fault rel (Action.modify fun c => { c with zrleStream := s })

abbrev Twins.Goes (T : Twins E) (m : ClientM E α) : Prop := InStep T.fault T.rel m

namespace Lockstep

/-! ## Reading -/

section Reading

variable {T : Twins E}

theorem avail : T.Goes (avail : ClientM E Nat) := inStep_gets fun _ _ h => congrArg List.length (T.buf h)

theorem need (n : Nat) {m : ClientM E Bool} (hm : T.Goes m) : T.Goes (need n m) :=
  avail.bind fun _ => inStep_ite (inStep_pure _) hm

theorem peek (n : Nat) {m : ClientM E (Option α)} (hm : T.Goes m) : T.Goes (peek n m) :=
  avail.bind fun _ => inStep_ite (inStep_pure _) hm

theorem u8 (off : Nat) : T.Goes (u8 off : ClientM E UInt8) := by
  intro c c' h
  unfold Paired Vnc.u8
  rw [T.buf h]
  split
  · exact .ok _ h
  · exact .error _ (T.faults _ (by decide))

theorem u16 (off : Nat) : T.Goes (u16 off : ClientM E Nat) :=
  (u8 _).bind fun _ => (u8 _).bind fun _ => inStep_pure _

theorem u32 (off : Nat) : T.Goes (u32 off : ClientM E Nat) :=
  (u16 _).bind fun _ => (u16 _).bind fun _ => inStep_pure _

theorem pixelAt (off : Nat) : T.Goes (pixelAt off : ClientM E QRgb) :=
  (u8 _).bind fun _ => (u8 _).bind fun _ => (u8 _).bind fun _ => (u8 _).bind fun _ => inStep_pure _

theorem bytes (off n : Nat) : T.Goes (bytes off n : ClientM E (List UInt8)) := by
  intro c c' h
  refine paired_check (p := fun c : VncClient E => off + n ≤ c.buf.length) (by rw [T.buf h]) (T.faults _ (by decide)) fun _ => ?_
  exact ⟨by rw [T.buf h], h⟩

theorem consume (n : Nat) : T.Goes (consume n : ClientM E Unit) := by
  intro c c' h
  refine paired_check (p := fun c : VncClient E => n ≤ c.buf.length) (by rw [T.buf h]) (T.faults _ (by decide)) fun _ => ⟨rfl, ?_⟩
  have huse := T.use (c'.buf.drop n) h
  simp only [T.buf h]
  exact huse

theorem int32 (n : Nat) : T.Goes (int32 n : ClientM E Nat) := fun _ _ h =>
  paired_check (p := fun _ : VncClient E => n < 2 ^ 31) Iff.rfl (T.faults _ (by decide)) fun _ => ⟨rfl, h⟩

theorem byteOf (data : List UInt8) (i : Nat) : T.Goes (byteOf data i : ClientM E UInt8) := by
  intro c c' h
  unfold Paired Vnc.byteOf
  split
  · exact .ok _ h
  · exact .error _ (T.faults _ (by decide))

theorem paletteAt (palette : List QRgb) (i : Nat) : T.Goes (paletteAt palette i : ClientM E QRgb) := by
  intro c c' h
  unfold Paired Vnc.paletteAt
  split
  · exact .ok _ h
  · exact .error _ (T.faults _ (by decide))

theorem failStep (message : String) : T.Goes (failStep message : ClientM E Bool) :=
  (T.fail message).bind fun _ => inStep_pure false

end Reading

/-! ## Drawing -/

variable {L : Lockstep E}

theorem work (h : L.rel c c') : c.work = c'.work := congrArg Workbench.work (L.view h)

theorem rect (h : L.rel c c') : c.rect = c'.rect := congrArg Workbench.rect (L.view h)

/-- A change of the workbench that depends on nothing else. -/
theorem modify (f : Workbench → Workbench) {g : VncClient E → VncClient E} (hg : ∀ c, g c = (f (workbench c)).onto c) :
    L.Goes (Action.modify g) := by
  refine inStep_modify fun c c' h => ?_
  rw [hg, hg, ← L.view h]
  exact L.put _ h

theorem setPixel (x y : Nat) (color : QRgb) : L.Goes (setPixel x y color : ClientM E Unit) := by
  intro c c' h
  refine paired_check (p := fun c : VncClient E => x < c.work.width ∧ y < c.work.height) (by rw [work h])
    (L.faults _ (by decide)) fun _ => ⟨rfl, ?_⟩
  have hput := L.put { workbench c with work := c.work.set x y color } h
  have heq : ({ workbench c with work := c.work.set x y color } : Workbench).onto c' =
      { c' with work := c'.work.set x y color } := by
    rw [L.view h, work h]
    rfl
  rw [heq] at hput
  exact hput

theorem rows (w h : Nat) {pixel : Nat → Nat → ClientM E Unit} (hpixel : ∀ row col, L.Goes (pixel row col)) :
    L.Goes (Action.forRange h fun row => Action.forRange w fun col => pixel row col) :=
  inStep_forRange (fun row => inStep_forRange (fun col => hpixel row col) _) _

theorem fillRect (x y w h : Nat) (color : QRgb) : L.Goes (fillRect x y w h color : ClientM E Unit) :=
  rows w h fun _ _ => setPixel _ _ _

theorem addDirty (r : Rect) : L.Goes (addDirty r : ClientM E Unit) :=
  modify (fun w => { w with dirty := w.dirty.united r }) fun _ => rfl

/-! ## Raw and CopyRect -/

theorem rawRows (x y w h pos : Nat) : L.Goes (rawRows x y w h pos : ClientM E Unit) :=
  rows w h fun _ _ => (pixelAt _).bind fun _ => setPixel _ _ _

theorem decodeRaw : L.Goes (decodeRaw : ClientM E Bool) := by
  refine inStep_look (fun _ _ => rect) fun c => need _ (InStep.bind ?_ fun _ => ?_)
  · refine inStep_forRange (fun row => (int32 _).bind fun base => inStep_forRange (fun col => ?_) _) _
    exact (pixelAt _).bind fun _ => setPixel _ _ _
  · exact (addDirty _).bind fun _ => (consume _).bind fun _ => inStep_pure true

theorem decodeCopyRect : L.Goes (decodeCopyRect : ClientM E Bool) := by
  refine need _ ((u16 _).bind fun x => (u16 _).bind fun y => ?_)
  refine inStep_look (fun _ _ => rect) fun c => inStep_look (fun _ _ => work) fun d => (consume _).bind fun _ => ?_
  refine inStep_ite (failStep _) (InStep.bind (rows _ _ fun _ _ => setPixel _ _ _) fun _ => ?_)
  exact (addDirty _).bind fun _ => inStep_pure true

/-! ## Hextile -/

theorem hextileColour (specified : Bool) (pos : Nat) (old : QRgb) :
    L.Goes (hextileColour specified pos old : ClientM E (Option (QRgb × Nat))) :=
  inStep_ite (peek _ ((pixelAt _).bind fun _ => inStep_pure _)) (inStep_pure _)

theorem hextileCount (specified : Bool) (pos : Nat) : L.Goes (hextileCount specified pos : ClientM E (Option (Nat × Nat))) :=
  inStep_ite (peek _ ((u8 _).bind fun _ => inStep_pure _)) (inStep_pure _)

theorem hextileSubrect (t : Rect) (fg : QRgb) (coloured : Bool) (pos : Option Nat) :
    L.Goes (hextileSubrect t fg coloured pos : ClientM E (Option Nat)) := by
  cases pos with
  | none => exact inStep_pure none
  | some pos =>
    have hrest (colour : QRgb) (pos : Nat) : L.Goes (do
        let xy ← Vnc.u8 pos
        let wh ← Vnc.u8 (pos + 1)
        if xy.toNat / 16 + (wh.toNat / 16 + 1) > t.w ∨ xy.toNat % 16 + (wh.toNat % 16 + 1) > t.h then
          Vnc.fail "The server sent an invalid Hextile subrectangle"
          pure none
        else
          Vnc.fillRect (t.x + xy.toNat / 16) (t.y + xy.toNat % 16) (wh.toNat / 16 + 1) (wh.toNat % 16 + 1) colour
          pure (some (pos + 2)) : ClientM E (Option Nat)) := by
      refine (u8 _).bind fun _ => (u8 _).bind fun _ => inStep_ite ((L.fail _).bind fun _ => inStep_pure none) ?_
      exact (fillRect _ _ _ _ _).bind fun _ => inStep_pure _
    unfold Vnc.hextileSubrect
    cases coloured with
    | true => exact (pixelAt _).bind fun colour => hrest colour (pos + 4)
    | false => exact (inStep_pure fg).bind fun colour => hrest colour pos

theorem hextileCommit (t : Rect) (bg fg : QRgb) (coloured : Bool) (subrects pos : Nat) :
    L.Goes (hextileCommit t bg fg coloured subrects pos : ClientM E Bool) := by
  refine (modify (fun w => { w with hexBg := bg, hexFg := fg }) fun _ => rfl).bind fun _ => (fillRect _ _ _ _ _).bind fun _ => ?_
  refine (inStep_foldRange (fun _ => hextileSubrect t fg coloured) _ _).bind fun pos => ?_
  cases pos with
  | none => exact inStep_pure false
  | some pos => exact (consume _).bind fun _ => inStep_pure true

theorem stepHextileTile : L.Goes (stepHextileTile : ClientM E Bool) := by
  have htile (c c' : VncClient E) (h : L.rel c c') : hextileTile c = hextileTile c' := by
    have hview := L.view h
    simp only [workbench, Workbench.mk.injEq] at hview
    obtain ⟨-, hr, -, hx, hy, -⟩ := hview
    simp only [hextileTile, hr, hx, hy]
  refine need _ (inStep_look htile fun c => (u8 _).bind fun sub => inStep_ite ?_ ?_)
  · exact need _ ((rawRows _ _ _ _ _).bind fun _ => (consume _).bind fun _ => inStep_pure true)
  · refine inStep_look (fun _ _ h => congrArg Workbench.hexBg (L.view h)) fun _ => ?_
    refine inStep_look (fun _ _ h => congrArg Workbench.hexFg (L.view h)) fun _ => ?_
    refine (hextileColour _ _ _).bind fun background => ?_
    rcases background with _ | ⟨bg, pos⟩
    · exact inStep_pure false
    refine (hextileColour _ _ _).bind fun foreground => ?_
    rcases foreground with _ | ⟨fg, pos⟩
    · exact inStep_pure false
    refine (hextileCount _ _).bind fun count => ?_
    rcases count with _ | ⟨subrects, pos⟩
    · exact inStep_pure false
    exact need _ (hextileCommit _ _ _ _ _ _)

theorem nextHextile : L.Goes (nextHextile : ClientM E Unit) :=
  modify (fun w => if w.tileX + 16 ≥ w.rect.w then { w with tileX := 0, tileY := w.tileY + 16 } else { w with tileX := w.tileX + 16 })
    fun c => (apply_ite (Workbench.onto · c) (c.tileX + 16 ≥ c.rect.w) { workbench c with tileX := 0, tileY := c.tileY + 16 }
      { workbench c with tileX := c.tileX + 16 }).symm

theorem decodeHextile : L.Goes (decodeHextile : ClientM E Bool) := by
  intro c c' h
  have hview := L.view h
  simp only [workbench, Workbench.mk.injEq] at hview
  obtain ⟨-, hr, -, hx, hy, -⟩ := hview
  have hleft : hextilesLeft c = hextilesLeft c' := by simp only [hextilesLeft, hr, hx, hy]
  have hcond (c c' : VncClient E) (h : L.rel c c') : decide (c.tileY < c.rect.h) = decide (c'.tileY < c'.rect.h) := by
    have hview := L.view h
    simp only [workbench, Workbench.mk.injEq] at hview
    rw [hview.2.1, hview.2.2.2.2.1]
  have hloop := inStep_loopWhile hcond stepHextileTile nextHextile (hextilesLeft c + 1) c c' h
  unfold Paired Vnc.decodeHextile hextileLoop
  rw [← hleft]
  exact hloop

/-! ## Tight -/

theorem resetStreams (control : UInt8) : L.Goes (resetStreams control : ClientM E Bool) := by
  refine (L.resetIfAsked _ _).bind fun _ => inStep_ite (inStep_pure false) ?_
  refine (L.resetIfAsked _ _).bind fun _ => inStep_ite (inStep_pure false) ?_
  refine (L.resetIfAsked _ _).bind fun _ => inStep_ite (inStep_pure false) ?_
  exact L.resetIfAsked _ _

theorem compactLength (off : Nat) : L.Goes (compactLength off : ClientM E (Option (Nat × Nat))) := by
  refine peek _ ((u8 _).bind fun _ => inStep_ite (inStep_pure _) (peek _ ((u8 _).bind fun _ => ?_)))
  exact inStep_ite (inStep_pure _) (peek _ ((u8 _).bind fun _ => inStep_pure _))

theorem tightFill : L.Goes (tightFill : ClientM E Bool) := by
  refine need _ (inStep_look (fun _ _ => rect) fun c => ?_)
  refine (u8 _).bind fun _ => (u8 _).bind fun _ => (u8 _).bind fun _ => (fillRect _ _ _ _ _).bind fun _ => ?_
  exact (consume _).bind fun _ => inStep_pure true

theorem rgbPixel (x y : Nat) (data : List UInt8) (i j k : Nat) : L.Goes (do
    let red ← Vnc.byteOf data i
    let green ← Vnc.byteOf data j
    let blue ← Vnc.byteOf data k
    Vnc.setPixel x y (qRgb red green blue) : ClientM E Unit) :=
  (byteOf _ _).bind fun _ => (byteOf _ _).bind fun _ => (byteOf _ _).bind fun _ => setPixel _ _ _

theorem tightJpeg : L.Goes (tightJpeg : ClientM E Bool) := by
  refine (compactLength _).bind fun header => ?_
  rcases header with _ | ⟨n, length⟩
  · exact inStep_pure false
  refine need _ (inStep_look (fun _ _ => rect) fun c => (bytes _ _).bind fun data => ?_)
  cases E.decodeJpegToRgb data with
  | none => exact failStep _
  | some j =>
    refine inStep_ite (failStep _) (InStep.bind (rows _ _ fun _ _ => rgbPixel _ _ _ _ _ _) fun _ => ?_)
    exact (consume _).bind fun _ => inStep_pure true

theorem tightFilter (control : UInt8) : L.Goes (tightFilter control : ClientM E (Option FilterHeader)) := by
  refine inStep_ite (inStep_pure _) (peek _ ((u8 _).bind fun filter => inStep_ite ?_ ?_))
  · refine peek _ ((u8 _).bind fun size => peek _ (InStep.bind ?_ fun _ => inStep_pure _))
    refine inStep_foldRange (fun i palette => ?_) _ _
    exact (u8 _).bind fun _ => (u8 _).bind fun _ => (u8 _).bind fun _ => inStep_pure _
  · exact inStep_ite (inStep_pure _) (inStep_pure _)

theorem tightPixels (r : Rect) (f : TightFilter) (data : List UInt8) : L.Goes (tightPixels r f data : ClientM E Unit) := by
  refine inStep_ite ?palette (inStep_ite ?gradient ?copy)
  case palette =>
    refine inStep_forRange (fun row => (int32 _).bind fun base => inStep_forRange (fun col => ?_) _) _
    have hcolor (index : Nat) : L.Goes (do
        let color ← Vnc.paletteAt f.palette index
        Vnc.setPixel (r.x + col) (r.y + row) color : ClientM E Unit) :=
      (paletteAt _ _).bind fun _ => setPixel _ _ _
    refine inStep_ite ?_ ?_
    · exact (byteOf _ _).bind fun b => (inStep_pure _).bind fun index => hcolor index
    · exact (byteOf _ _).bind fun b => (inStep_pure _).bind fun index => hcolor index
  case gradient =>
    have hbyte (row : Nat) (prev : List UInt8) (x : Nat) (cur : List UInt8) (k : Nat) :
        L.Goes (gradientPixel row prev data x cur k : ClientM E UInt8) := by
      refine (byteOf _ _).bind fun _ => (byteOf _ _).bind fun _ => inStep_ite (inStep_pure _) ?_
      exact (byteOf _ _).bind fun _ => (byteOf _ _).bind fun _ => inStep_pure _
    refine InStep.bind (inStep_foldRange (fun y prev => ?_) _ _) fun _ => inStep_pure ()
    refine (int32 _).bind fun base => inStep_foldRange (fun x cur => ?_) _ _
    refine (hbyte _ _ _ _ _).bind fun _ => (hbyte _ _ _ _ _).bind fun _ => (hbyte _ _ _ _ _).bind fun _ => ?_
    exact (setPixel _ _ _).bind fun _ => inStep_pure _
  case copy =>
    refine inStep_forRange (fun row => (int32 _).bind fun base => inStep_forRange (fun col => ?_) _) _
    exact rgbPixel _ _ _ _ _ _

theorem tightCompressed (r : Rect) (f : TightFilter) (stream : Fin 4) (dataSize : Nat) :
    L.Goes (tightCompressed r f stream dataSize : ClientM E Bool) := by
  refine (compactLength _).bind fun header => ?_
  rcases header with _ | ⟨n, length⟩
  · exact inStep_pure false
  refine need _ ((L.tightStream _).bind fun state => ?_)
  cases state with
  | none => exact failStep _
  | some state =>
    refine (bytes _ _).bind fun input => ?_
    cases state.zs with
    | none => exact failStep _
    | some zs =>
      refine (L.setStream _ _).bind fun _ => inStep_ite (failStep _) ?_
      exact (tightPixels _ _ _).bind fun _ => (consume _).bind fun _ => inStep_pure true

theorem tightFiltered (header : FilterHeader) (stream : Fin 4) : L.Goes (tightFiltered header stream : ClientM E Bool) := by
  cases header with
  | unsupported => exact failStep _
  | ok f =>
    refine inStep_look (fun _ _ => rect) fun c => (int32 _).bind fun _ => (int32 _).bind fun dataSize => ?_
    refine inStep_ite (need _ ((bytes _ _).bind fun data => ?_)) (tightCompressed _ _ _ _)
    exact (tightPixels _ _ _).bind fun _ => (consume _).bind fun _ => inStep_pure true

theorem stepTight : L.Goes (stepTight : ClientM E Bool) := by
  refine need _ ((u8 _).bind fun control => (resetStreams _).bind fun ok => inStep_ite ?_ (inStep_pure false))
  refine inStep_ite tightFill (inStep_ite tightJpeg (inStep_ite (failStep _) ((tightFilter _).bind fun header => ?_)))
  cases header with
  | none => exact inStep_pure false
  | some header => exact tightFiltered _ _

/-! ## ZRLE -/

theorem drawWrites (ws : List Write) : L.Goes (drawWrites ws : ClientM E Unit) := by
  induction ws with
  | nil => exact inStep_pure ()
  | cons w ws ih =>
    refine InStep.bind ?_ fun _ => ih
    unfold drawWrite
    cases w.color with
    | none => exact inStep_throw (L.faults _ (by decide))
    | some color => exact setPixel _ _ _

theorem zrleRect (payload : List UInt8) : L.Goes (zrleRect payload : ClientM E Bool) := by
  refine inStep_look (fun _ _ => rect) fun c => (drawWrites _).bind fun _ => ?_
  cases hf : (zrleDecode (zrleTiles c.rect) payload).finish with
  | ok rest => exact (addDirty _).bind fun _ => inStep_pure true
  | corrupt => exact failStep _
  | fault f =>
    obtain rfl := zrleDecode_fault (zrleTiles_clipped c.rect) hf
    exact inStep_throw (L.faults _ (by decide))

theorem stepZrle : L.Goes (stepZrle : ClientM E Bool) := by
  refine need _ ((u32 _).bind fun length => inStep_ite (failStep _) (need _ (L.zrleState.bind fun state => ?_)))
  cases state with
  | none => exact failStep _
  | some state =>
    refine (bytes _ _).bind fun input => ?_
    cases state.zs with
    | none => exact failStep _
    | some zs =>
      refine (L.setZrleStream _).bind fun _ => inStep_ite (failStep _) ?_
      exact (consume _).bind fun _ => zrleRect _

/-! ## All of them -/

theorem thenDirty {decode : ClientM E Bool} (h : L.Goes decode) : L.Goes (thenDirty decode) := by
  refine h.bind fun done => inStep_ite ?_ (inStep_pure false)
  exact inStep_look (fun _ _ => rect) fun _ => (addDirty _).bind fun _ => inStep_pure true

theorem decodeDesktopSize : L.Goes (decodeDesktopSize : ClientM E Bool) := by
  refine inStep_look (fun _ _ => rect) fun c => inStep_ite (failStep _) ((L.alloc _ _).bind fun _ => ?_)
  exact (addDirty _).bind fun _ => (L.emit _).bind fun _ => L.resize.bind fun _ => inStep_pure true

theorem decodeRect (encoding : Int) : L.Goes (decodeRect encoding : ClientM E Bool) := by
  refine inStep_ite decodeRaw (inStep_ite decodeCopyRect (inStep_ite (thenDirty decodeHextile) ?_))
  refine inStep_ite (thenDirty stepTight) (inStep_ite stepZrle (inStep_ite (inStep_pure true) ?_))
  exact inStep_ite decodeDesktopSize (failStep _)

end Lockstep

end LvdTerm.Vnc
