import LvdTerm.Vnc.Session

/-!
# VNC client: rules for the primitive operations

One weakest-precondition rule for each operation the steps are written in. A rule asks
for what makes the operation legal (the byte is there, the pixel is in the image, the
socket exists) and hands on what it leaves. `Painted` is the frame of the drawing
routines: they change pixels of `m_work` and nothing else.
-/
namespace LvdTerm.Vnc

open Lib Action

variable {E : Env} {F : Fault → Prop} {c : VncClient E}

/-! ## Reading -/

theorem wp_need {n : Nat} {m : ClientM E Bool} {Q : Bool → VncClient E → Prop}
    (hshort : Q false c) (henough : n ≤ c.buf.length → wp F m Q c) : wp F (need n m) Q c := by
  unfold need avail
  simp only [wp_bind, wp_gets]
  refine wp_ite (fun _ => hshort) (fun h => henough (by omega))

theorem need_short {n : Nat} {m : ClientM E Bool} (h : ¬ n ≤ c.buf.length) : need n m c = .ok (false, c) := by
  unfold need avail
  rw [bind_of_ok (gets_apply _ _), if_pos (by omega)]
  rfl

theorem need_enough {n : Nat} {m : ClientM E Bool} (h : n ≤ c.buf.length) : need n m c = m c := by
  unfold need avail
  rw [bind_of_ok (gets_apply _ _), if_neg (by omega)]

theorem bytes_apply {off n : Nat} (h : off + n ≤ c.buf.length) : bytes off n c = .ok ((c.buf.drop off).take n, c) := if_pos h

theorem consume_apply {n : Nat} (h : n ≤ c.buf.length) : consume n c = .ok ((), { c with buf := c.buf.drop n }) := if_pos h

theorem wp_peek {α : Type} {n : Nat} {m : ClientM E (Option α)} {Q : Option α → VncClient E → Prop}
    (hshort : Q none c) (henough : n ≤ c.buf.length → wp F m Q c) : wp F (peek n m) Q c := by
  unfold peek avail
  simp only [wp_bind, wp_gets]
  refine wp_ite (fun _ => hshort) (fun h => henough (by omega))

theorem wp_u8 {off : Nat} {Q : UInt8 → VncClient E → Prop} (hoff : off < c.buf.length)
    (h : ∀ b, c.buf[off]? = some b → Q b c) : wp F (u8 off) Q c := by
  have hget := List.getElem?_eq_getElem hoff
  unfold wp u8
  rw [hget]
  exact h _ hget

theorem wp_u16 {off : Nat} {Q : Nat → VncClient E → Prop} (hoff : off + 2 ≤ c.buf.length)
    (h : ∀ v, v < 2 ^ 16 → Q v c) : wp F (u16 off) Q c := by
  unfold u16
  simp only [wp_bind, wp_pure]
  refine wp_u8 (by omega) fun hi _ => wp_u8 (by omega) fun lo _ => h _ ?_
  have h1 := hi.toNat_lt
  have h2 := lo.toNat_lt
  omega

theorem wp_u32 {off : Nat} {Q : Nat → VncClient E → Prop} (hoff : off + 4 ≤ c.buf.length)
    (h : ∀ v, v < 2 ^ 32 → Q v c) : wp F (u32 off) Q c := by
  unfold u32
  simp only [wp_bind, wp_pure]
  refine wp_u16 (by omega) fun hi h1 => wp_u16 (by omega) fun lo h2 => h _ ?_
  omega

theorem wp_bytes {off n : Nat} {Q : List UInt8 → VncClient E → Prop} (hoff : off + n ≤ c.buf.length)
    (h : ∀ d, d.length = n → Q d c) : wp F (bytes off n) Q c := by
  unfold wp bytes
  rw [if_pos hoff]
  apply h
  rw [List.length_take, List.length_drop]
  omega

theorem wp_pixelAt {off : Nat} {Q : QRgb → VncClient E → Prop} (hoff : off + 4 ≤ c.buf.length)
    (h : ∀ color, Q color c) : wp F (pixelAt off) Q c := by
  unfold pixelAt
  simp only [wp_bind, wp_pure]
  exact wp_u8 (by omega) fun _ _ => wp_u8 (by omega) fun _ _ => wp_u8 (by omega) fun _ _ =>
    wp_u8 (by omega) fun _ _ => h _

theorem wp_consume {n : Nat} {Q : Unit → VncClient E → Prop} (hn : n ≤ c.buf.length)
    (h : Q () { c with buf := c.buf.drop n }) : wp F (consume n) Q c := by
  unfold wp consume
  rw [if_pos hn]
  exact h

theorem wp_int32 {n : Nat} {Q : Nat → VncClient E → Prop} (hover : ¬ n < 2 ^ 31 → F .intOverflow)
    (h : n < 2 ^ 31 → Q n c) : wp F (int32 n) Q c := by
  unfold wp int32
  by_cases hn : n < 2 ^ 31
  · rw [if_pos hn]
    exact h hn
  · rw [if_neg hn]
    exact hover hn

theorem wp_byteOf {data : List UInt8} {i : Nat} {Q : UInt8 → VncClient E → Prop}
    (hi : i < data.length) (h : ∀ b, Q b c) : wp F (byteOf data i) Q c := by
  unfold wp byteOf
  rw [List.getElem?_eq_getElem hi]
  exact h _

/-! ## Output -/

theorem wp_write {data : List UInt8} {Q : Unit → VncClient E → Prop} (hsocket : c.socket = true)
    (h : Q () { c with events := c.events ++ [.write data] }) : wp F (write data) Q c := by
  unfold wp write
  rw [if_pos hsocket]
  exact h

/-- The client after a first failure. -/
def VncClient.failed (message : String) (c : VncClient E) : VncClient E :=
  { c with failedAlready := true, stage := .idle, socket := false,
           events := c.events ++ [.failed message] ++ [.closed] }

theorem fail_apply (message : String) (hc : c.failedAlready = false) :
    fail message c = .ok ((), c.failed message) := by
  unfold fail
  rw [hc]
  rfl

theorem wp_failStep {message : String} {Q : Bool → VncClient E → Prop} (hc : c.failedAlready = false)
    (h : Q false (c.failed message)) : wp F (failStep message) Q c := by
  unfold failStep wp
  rw [bind_of_ok (fail_apply message hc)]
  exact h

theorem failStep_apply {message : String} (h : c.failedAlready = false) : failStep message c = .ok (false, c.failed message) := by
  unfold failStep
  rw [bind_of_ok (fail_apply message h)]
  rfl

/-! ## Drawing -/

/-- Only pixels of `m_work` differ. -/
def Painted (c c' : VncClient E) : Prop :=
  ∃ pixel, c' = { c with work := ⟨c.work.width, c.work.height, pixel⟩ }

theorem Painted.refl (c : VncClient E) : Painted c c := ⟨c.work.pixel, rfl⟩

theorem Painted.set {c c' : VncClient E} (h : Painted c c') (x y : Nat) (color : QRgb) :
    Painted c { c' with work := c'.work.set x y color } := by
  obtain ⟨pixel, rfl⟩ := h
  exact ⟨_, rfl⟩

theorem Painted.width {c c' : VncClient E} (h : Painted c c') : c'.work.width = c.work.width := by
  obtain ⟨pixel, rfl⟩ := h
  rfl

theorem Painted.height {c c' : VncClient E} (h : Painted c c') : c'.work.height = c.work.height := by
  obtain ⟨pixel, rfl⟩ := h
  rfl

theorem Painted.buf {c c' : VncClient E} (h : Painted c c') : c'.buf = c.buf := by
  obtain ⟨pixel, rfl⟩ := h
  rfl

/-- `w` by `h` pixels from `x`, `y` on are in the image. -/
def Image.Holds (i : Image) (x y w h : Nat) : Prop := x + w ≤ i.width ∧ y + h ≤ i.height

theorem wp_setPixel {c c' : VncClient E} {x y : Nat} {color : QRgb} (hp : Painted c c')
    (hx : x < c.work.width) (hy : y < c.work.height) :
    wp F (setPixel x y color) (fun _ => Painted c) c' := by
  unfold wp setPixel
  rw [if_pos ⟨by rw [hp.width]; exact hx, by rw [hp.height]; exact hy⟩]
  exact hp.set x y color

/-- A routine that draws `w` by `h` pixels one after the other, row by row. -/
theorem wp_rows {w h : Nat} {pixel : Nat → Nat → ClientM E Unit}
    (hpixel : ∀ row col c', row < h → col < w → Painted c c' →
      wp F (pixel row col) (fun _ => Painted c) c') :
    wp F (forRange h fun row => forRange w fun col => pixel row col) (fun _ => Painted c) c := by
  refine wp_forRange (I := fun _ => Painted c) (fun row c' hrow hp => ?_) (Painted.refl c)
  exact wp_forRange (I := fun _ => Painted c) (fun col c'' hcol hp' => hpixel row col c'' hrow hcol hp') hp

theorem wp_fillRect {x y w h : Nat} {color : QRgb} (hin : c.work.Holds x y w h) :
    wp F (fillRect x y w h color) (fun _ => Painted c) c :=
  wp_rows fun row col c' hrow hcol hp =>
    wp_setPixel hp (by have := hin.1; omega) (by have := hin.2; omega)

end LvdTerm.Vnc
