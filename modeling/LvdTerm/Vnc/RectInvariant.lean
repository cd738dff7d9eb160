import LvdTerm.Vnc.Invariant
import LvdTerm.Vnc.ZrleSafety

/-!
# VNC client: what the rectangle decoders keep

Each decoder runs on a live client inside a rectangle (`Live`, `RectOk`, `Inside`). If it
completes, the client is still live; if it does not, it has failed or waits in a state
that satisfies `Inv` (`After`).
-/
namespace LvdTerm.Vnc

open Lib Action

variable {E : Env} {F : Fault → Prop} {c c' c₁ : VncClient E}

/-! ## Frames -/

structure Live (c : VncClient E) : Prop where
  stage : c.stage = .running
  socket : c.socket = true
  failed : c.failedAlready = false
  screen : Screen c

/-- The rectangle lies inside the working image. -/
def Inside (c : VncClient E) : Prop :=
  c.rect.x + c.rect.w ≤ c.work.width ∧ c.rect.y + c.rect.h ≤ c.work.height

theorem Live.of_inv (h : Inv c) (hs : c.stage = .running) : Live c :=
  have hl := h.live (by rw [hs]; decide)
  ⟨hs, hl.1, hl.2, h.screen hs⟩

theorem Live.inv (h : Live c) (hr : c.inRect = true → RectOk c) : Inv c where
  idle hs := by rw [h.stage] at hs; cases hs
  live _ := ⟨h.socket, h.failed⟩
  early hs := absurd h.stage hs
  screen _ := h.screen
  rect _ := hr

theorem Live.painted (h : Live c) (hp : Painted c c') : Live c' := by
  obtain ⟨pixel, rfl⟩ := hp
  exact ⟨h.stage, h.socket, h.failed, h.screen.width_pos, h.screen.height_pos, h.screen.width_lt,
    h.screen.height_lt, h.screen.fb_width, h.screen.fb_height⟩

/-- Nothing that `Live` looks at differs. -/
theorem Live.of_eq (h : Live c) (hs : c'.stage = c.stage) (hso : c'.socket = c.socket)
    (hf : c'.failedAlready = c.failedAlready) (hw : c'.work = c.work) (hfb : c'.fb = c.fb) : Live c' := by
  refine ⟨hs.trans h.stage, hso.trans h.socket, hf.trans h.failed, ?_⟩
  obtain ⟨h1, h2, h3, h4, h5, h6⟩ := h.screen
  rw [← hw] at h1 h2 h3 h4 h5 h6
  rw [← hfb] at h5 h6
  exact ⟨h1, h2, h3, h4, h5, h6⟩

theorem RectOk.painted (h : RectOk c) (hp : Painted c c') : RectOk c' := by
  obtain ⟨pixel, rfl⟩ := hp
  exact ⟨h.width_lt, h.height_lt, h.inside, h.tile⟩

theorem Inside.painted (h : Inside c) (hp : Painted c c') : Inside c' := by
  obtain ⟨pixel, rfl⟩ := hp
  exact h

theorem Painted.trans {c₂ : VncClient E} (h : Painted c c₁) (h' : Painted c₁ c₂) : Painted c c₂ := by
  obtain ⟨p, rfl⟩ := h
  obtain ⟨p', rfl⟩ := h'
  exact ⟨p', rfl⟩

/-- A drawing routine, followed by the rest of a decoder. -/
theorem wp_painted {m : ClientM E Unit} {Q : Unit → VncClient E → Prop}
    (h : wp F m (fun _ => Painted c) c) (hQ : ∀ c', Painted c c' → Q () c') : wp F m Q c :=
  wp_mono h fun _ c' hp => hQ c' hp

/-- The outcome of a decoder. -/
structure After (c : VncClient E) (done : Bool) (c' : VncClient E) : Prop where
  buf_le : c'.buf.length ≤ c.buf.length
  live : done = true → Live c'
  inv : done = false → Inv c'

theorem After.done (hle : c'.buf.length ≤ c.buf.length) (h : Live c') : After c true c' :=
  ⟨hle, fun _ => h, fun hn => by cases hn⟩

theorem After.wait (hle : c'.buf.length ≤ c.buf.length) (h : Inv c') : After c false c' :=
  ⟨hle, fun hn => (by cases hn), fun _ => h⟩

theorem After.failed (message : String) (hle : c'.buf.length ≤ c.buf.length) :
    After c false (c'.failed message) :=
  .wait hle (inv_failed message c')

theorem After.of_le {done : Bool} (h : After c₁ done c') (hle : c₁.buf.length ≤ c.buf.length) :
    After c done c' :=
  ⟨Nat.le_trans h.buf_le hle, h.live, h.inv⟩

/-- The last lines of a decoder: everything is drawn, the data is used up. -/
theorem After.painted {n : Nat} (h : Live c) (hp : Painted c c') :
    After c true { c' with buf := c'.buf.drop n } := by
  refine .done ?_ ((h.painted hp).of_eq rfl rfl rfl rfl rfl)
  simp only [List.length_drop, hp.buf]
  omega

theorem pixel_lt {w h row col : Nat} (hrow : row < h) (hcol : col < w) : row * w + col + 1 ≤ w * h := by
  calc row * w + col + 1 ≤ row * w + w := by omega
    _ = (row + 1) * w := (Nat.succ_mul row w).symm
    _ ≤ h * w := Nat.mul_le_mul_right w hrow
    _ = w * h := Nat.mul_comm h w

/-! ## Raw and CopyRect -/

theorem decodeRaw_after (hl : Live c) (hin : Inside c) (hinv : Inv c)
    (hraw : c.rect.w * c.rect.h * 4 ≤ c.buf.length → c.rect.w * c.rect.h * 4 < 2 ^ 31 ∨ F .intOverflow) :
    wp F decodeRaw (After c) c := by
  unfold decodeRaw
  simp only [wp_bind, wp_gets]
  refine wp_need (.wait (Nat.le_refl _) hinv) fun hlen => ?_
  simp only [wp_bind, addDirty, wp_modify, wp_pure]
  refine wp_painted ?_ fun c₁ hp => wp_consume ?_ ?_
  · refine wp_forRange (I := fun _ => Painted c) (fun row c₁ hrow hp => ?_) (Painted.refl c)
    have hsize : row * c.rect.w * 4 ≤ c.rect.w * c.rect.h * 4 :=
      Nat.mul_le_mul_right 4 (by rw [Nat.mul_comm c.rect.w]; exact Nat.mul_le_mul_right _ (Nat.le_of_lt hrow))
    simp only [wp_bind]
    refine wp_int32 (fun h => (hraw hlen).resolve_left (by omega)) fun _ => ?_
    refine wp_forRange (I := fun _ => Painted c) (fun col c₂ hcol hp => ?_) hp
    have hpix := pixel_lt hrow hcol
    have hend : row * c.rect.w * 4 + col * 4 + 4 ≤ c.rect.w * c.rect.h * 4 := by omega
    simp only [wp_bind]
    refine wp_pixelAt (by rw [hp.buf]; omega) fun color => wp_setPixel hp ?_ ?_
    · have := hin.1; omega
    · have := hin.2; omega
  · simp only [hp.buf]
    exact hlen
  · refine .done ?_ ((hl.painted hp).of_eq rfl rfl rfl rfl rfl)
    simp only [List.length_drop, hp.buf]
    omega

theorem Image.copy_holds {i : Image} {r : Rect} (hnull : r.isNull = false) :
    (i.copy r).width ≤ r.w ∧ (i.copy r).height ≤ r.h := by
  unfold Image.copy
  rw [hnull, if_neg (by decide)]
  split
  · exact ⟨Nat.zero_le _, Nat.zero_le _⟩
  · exact ⟨Nat.le_refl _, Nat.le_refl _⟩

theorem Rect.not_null_of_contains {a r : Rect} (h : a.contains r = true) : r.isNull = false := by
  unfold Rect.contains at h
  rw [Bool.and_eq_true, Bool.and_eq_true] at h
  have := h.1.2
  cases hr : r.isNull with
  | false => rfl
  | true => rw [hr] at this; cases this

theorem decodeCopyRect_after (hl : Live c) (hin : Inside c) (hinv : Inv c) :
    wp F decodeCopyRect (After c) c := by
  unfold decodeCopyRect
  refine wp_need (.wait (Nat.le_refl _) hinv) fun hlen => ?_
  simp only [wp_bind]
  refine wp_u16 (by omega) fun x _ => wp_u16 (by omega) fun y _ => ?_
  simp only [wp_gets]
  refine wp_consume hlen (wp_ite (fun _ => ?_) (fun hcontains => ?_))
  · refine wp_failStep hl.failed (.failed _ ?_)
    simp only [List.length_drop]
    omega
  · have hsource : c.work.rect.contains ⟨x, y, c.rect.w, c.rect.h⟩ = true := by
      simpa using hcontains
    obtain ⟨hw, hh⟩ := Image.copy_holds (i := c.work) (Rect.not_null_of_contains hsource)
    simp only at hw hh
    have hin1 := hin.1
    have hin2 := hin.2
    simp only [wp_bind, addDirty, wp_modify, wp_pure]
    refine wp_painted (c := { c with buf := c.buf.drop 4 }) ?_ fun c₁ hp => ?_
    · have hholds : c.work.Holds c.rect.x c.rect.y (c.work.copy ⟨x, y, c.rect.w, c.rect.h⟩).width
          (c.work.copy ⟨x, y, c.rect.w, c.rect.h⟩).height := ⟨by omega, by omega⟩
      exact wp_rows fun row col c₂ hrow hcol hp =>
        wp_setPixel hp (by simp only; omega) (by simp only; omega)
    · refine .done ?_ ?_
      · simp only [hp.buf, List.length_drop]
        omega
      · have hl' : Live { c with buf := c.buf.drop 4 } := hl.of_eq rfl rfl rfl rfl rfl
        exact (hl'.painted hp).of_eq rfl rfl rfl rfl rfl

/-! ## Hextile -/

/-- Where the tile loop is inside its rectangle. -/
structure Tiling (c : VncClient E) : Prop where
  live : Live c
  ok : RectOk c
  inside : Inside c

theorem Tiling.inv (h : Tiling c) : Inv c := h.live.inv fun _ => h.ok

theorem Tiling.painted (h : Tiling c) (hp : Painted c c') : Tiling c' :=
  ⟨h.live.painted hp, h.ok.painted hp, h.inside.painted hp⟩

/-- The outcome of one tile: if it completes, the loop is where it was. -/
structure TileAfter (c : VncClient E) (done : Bool) (c' : VncClient E) : Prop where
  buf_le : c'.buf.length ≤ c.buf.length
  tiling : done = true → Tiling c'
  same : done = true → c'.rect = c.rect ∧ c'.tileX = c.tileX ∧ c'.tileY = c.tileY
  inv : done = false → Inv c'

theorem TileAfter.wait (h : Tiling c) : TileAfter c false c :=
  ⟨Nat.le_refl _, fun hn => (by cases hn), fun hn => (by cases hn), fun _ => h.inv⟩

theorem TileAfter.done {n : Nat} (h : Tiling c) (hp : Painted c c') :
    TileAfter c true { c' with buf := c'.buf.drop n } := by
  obtain ⟨pixel, rfl⟩ := hp
  refine ⟨?_, fun _ => ?_, fun _ => ⟨rfl, rfl, rfl⟩, fun hn => by cases hn⟩
  · simp only [List.length_drop]
    omega
  · have hp : Painted c { c with work := ⟨c.work.width, c.work.height, pixel⟩ } := ⟨pixel, rfl⟩
    have h' := h.painted hp
    exact ⟨h'.live.of_eq rfl rfl rfl rfl rfl, ⟨h.ok.width_lt, h.ok.height_lt, h.ok.inside, h.ok.tile⟩, h.inside⟩

theorem TileAfter.failed (message : String) (hle : c'.buf.length ≤ c.buf.length) :
    TileAfter c false (c'.failed message) :=
  ⟨hle, fun hn => (by cases hn), fun hn => (by cases hn), fun _ => inv_failed message c'⟩

theorem hextileTile_holds (h : Tiling c) (hrow : c.tileY < c.rect.h) :
    c.work.Holds (hextileTile c).x (hextileTile c).y (hextileTile c).w (hextileTile c).h := by
  have htile := h.ok.tile
  obtain ⟨hx, hy⟩ := h.inside
  unfold Image.Holds hextileTile
  exact ⟨by simp only; omega, by simp only; omega⟩

theorem hextileRaw_after {t : Rect} (h : Tiling c) (hin : c.work.Holds t.x t.y t.w t.h) :
    wp F (hextileRaw t) (TileAfter c) c := by
  unfold hextileRaw rawRows
  refine wp_need (.wait h) fun hlen => ?_
  simp only [wp_bind, wp_pure]
  refine wp_painted ?_ fun c₁ hp => wp_consume (by rw [hp.buf]; exact hlen) (.done h hp)
  refine wp_rows fun row col c₁ hrow hcol hp => ?_
  have hpix := pixel_lt hrow hcol
  have hin1 := hin.1
  have hin2 := hin.2
  simp only [wp_bind]
  exact wp_pixelAt (by rw [hp.buf]; omega) fun color => wp_setPixel hp (by omega) (by omega)

theorem wp_hextileColour {specified : Bool} {pos : Nat} {old : QRgb}
    {Q : Option (QRgb × Nat) → VncClient E → Prop} (hnone : Q none c)
    (hsome : ∀ color pos, Q (some (color, pos)) c) : wp F (hextileColour specified pos old) Q c := by
  unfold hextileColour
  refine wp_ite (fun _ => wp_peek hnone fun hlen => ?_) (fun _ => hsome old pos)
  simp only [wp_bind, wp_pure]
  exact wp_pixelAt (by omega) fun color => hsome color _

theorem wp_hextileCount {specified : Bool} {pos : Nat} {Q : Option (Nat × Nat) → VncClient E → Prop}
    (hnone : Q none c) (hsome : ∀ subrects pos, Q (some (subrects, pos)) c) :
    wp F (hextileCount specified pos) Q c := by
  unfold hextileCount
  refine wp_ite (fun _ => wp_peek hnone fun hlen => ?_) (fun _ => hsome 0 pos)
  simp only [wp_bind, wp_pure]
  exact wp_u8 (by omega) fun subrects _ => hsome _ _

/-- After `i` subrectangles: still drawing at the right position, or failed. -/
def SubrectsDone (c : VncClient E) (pos size i : Nat) (acc : Option Nat) (c' : VncClient E) : Prop :=
  match acc with
  | some p => p = pos + i * size ∧ Painted c c'
  | none => ∃ message, ∃ c₁ : VncClient E, c' = c₁.failed message ∧ c₁.buf = c.buf

theorem hextileSubrect_spec {t : Rect} (fg : QRgb) {coloured : Bool} {pos size i n : Nat} {acc : Option Nat}
    (hlive : c.failedAlready = false) (hin : c.work.Holds t.x t.y t.w t.h)
    (hsize : size = if coloured then 6 else 2) (hlen : pos + n * size ≤ c.buf.length) (hi : i < n)
    (hacc : SubrectsDone c pos size i acc c') :
    wp F (hextileSubrect t fg coloured acc) (SubrectsDone c pos size (i + 1)) c' := by
  cases acc with
  | none =>
    have hstay : SubrectsDone c pos size (i + 1) none c' := hacc
    unfold hextileSubrect
    exact hstay
  | some p =>
    obtain ⟨rfl, hp⟩ := hacc
    have hnext : pos + i * size + size ≤ c.buf.length := by
      have := Nat.mul_le_mul_right size hi
      rw [Nat.succ_mul] at this
      omega
    have hin1 := hin.1
    have hin2 := hin.2
    -- the subrectangle behind its colour, at `q`
    have hrest : ∀ color q, q + 2 = pos + (i + 1) * size → wp F (do
        let xy ← u8 q
        let wh ← u8 (q + 1)
        let sx := xy.toNat / 16
        let sy := xy.toNat % 16
        let sw := wh.toNat / 16 + 1
        let sh := wh.toNat % 16 + 1
        if sx + sw > t.w ∨ sy + sh > t.h then
          fail "The server sent an invalid Hextile subrectangle"
          pure none
        else
          fillRect (t.x + sx) (t.y + sy) sw sh color
          pure (some (q + 2))) (SubrectsDone c pos size (i + 1)) c' := by
      intro color q hq
      have hq' : q + 2 ≤ c'.buf.length := by
        rw [hp.buf, hq, Nat.succ_mul]
        omega
      simp only [wp_bind]
      refine wp_u8 (by omega) fun xy _ => wp_u8 (by omega) fun wh _ => wp_ite (fun _ => ?_) (fun hfit => ?_)
      · simp only [wp_bind, wp_pure]
        obtain ⟨pixel, rfl⟩ := hp
        exact wp_fail hlive ⟨_, _, rfl, rfl⟩
      · simp only [wp_bind, wp_pure]
        refine wp_painted (wp_fillRect ?_) fun c₂ hp₂ => ⟨hq, hp.trans hp₂⟩
        unfold Image.Holds
        rw [hp.width, hp.height]
        omega
    unfold hextileSubrect
    cases coloured with
    | false =>
      have h2 : size = 2 := hsize
      subst h2
      exact hrest fg (pos + i * 2) (by omega)
    | true =>
      have h6 : size = 6 := hsize
      subst h6
      simp only [if_true, wp_bind]
      have hcolour := hrest
      simp only [wp_bind] at hcolour
      exact wp_pixelAt (by rw [hp.buf]; omega) fun color => hcolour color (pos + i * 6 + 4) (by omega)

theorem hextileCommit_after {t : Rect} {bg fg : QRgb} {coloured : Bool} {subrects pos : Nat} (h : Tiling c)
    (hin : c.work.Holds t.x t.y t.w t.h)
    (hlen : pos + subrects * (if coloured then 6 else 2) ≤ c.buf.length) :
    wp F (hextileCommit t bg fg coloured subrects pos) (TileAfter c) c := by
  unfold hextileCommit
  simp only [wp_bind, wp_modify]
  have hc : Tiling { c with hexBg := bg, hexFg := fg } :=
    ⟨h.live.of_eq rfl rfl rfl rfl rfl, ⟨h.ok.width_lt, h.ok.height_lt, h.ok.inside, h.ok.tile⟩, h.inside⟩
  refine wp_painted (c := { c with hexBg := bg, hexFg := fg }) (wp_fillRect hin) fun c₁ hp => ?_
  have hloop : wp F (foldRange (fun _ => hextileSubrect t fg coloured) subrects (some pos))
      (SubrectsDone { c with hexBg := bg, hexFg := fg } pos (if coloured then 6 else 2) subrects) c₁ :=
    wp_foldRange (fun i acc c₂ hi hacc =>
      hextileSubrect_spec fg hc.live.failed hin rfl hlen hi hacc) ⟨by omega, hp⟩
  refine wp_mono hloop fun acc c₂ hacc => ?_
  cases acc with
  | none =>
    obtain ⟨message, c₃, rfl, hbuf⟩ := hacc
    exact .failed message (Nat.le_of_eq (by rw [hbuf]))
  | some p =>
    obtain ⟨rfl, hp₂⟩ := hacc
    simp only [wp_bind, wp_pure]
    refine wp_consume (by rw [hp₂.buf]; exact hlen) ?_
    obtain ⟨h1, h2, h3, h4⟩ := TileAfter.done (n := pos + subrects * if coloured then 6 else 2) hc hp₂
    exact ⟨h1, h2, h3, h4⟩

theorem stepHextileTile_after (h : Tiling c) (hrow : c.tileY < c.rect.h) :
    wp F stepHextileTile (TileAfter c) c := by
  have hin := hextileTile_holds h hrow
  unfold stepHextileTile
  refine wp_need (.wait h) fun hlen => ?_
  simp only [wp_bind, wp_gets]
  refine wp_u8 (by omega) fun sub _ => wp_ite (fun _ => hextileRaw_after h hin) (fun _ => ?_)
  simp only [wp_bind, wp_gets]
  refine wp_hextileColour (.wait h) fun bg p₁ => ?_
  simp only [wp_bind]
  refine wp_hextileColour (.wait h) fun fg p₂ => ?_
  simp only [wp_bind]
  refine wp_hextileCount (.wait h) fun subrects p₃ => ?_
  exact wp_need (.wait h) fun hlen' => hextileCommit_after h hin hlen'

theorem hextileLoop_after (n : Nat) (h : Tiling c) : wp F (hextileLoop n) (After c) c := by
  induction n generalizing c with
  | zero => exact .done (Nat.le_refl _) h.live
  | succ n ih =>
    unfold hextileLoop loopWhile
    simp only [wp_bind, wp_gets]
    refine wp_ite (fun hrow => ?_) (fun _ => .done (Nat.le_refl _) h.live)
    simp only [wp_bind]
    refine wp_mono (stepHextileTile_after h (of_decide_eq_true hrow)) fun tile c₁ ht => ?_
    cases tile with
    | false => exact .wait ht.buf_le (ht.inv rfl)
    | true =>
      have htiling := ht.tiling rfl
      simp only [if_true, wp_bind, nextHextile, wp_modify]
      split
      · have hnext : Tiling { c₁ with tileX := 0, tileY := c₁.tileY + 16 } :=
          ⟨htiling.live.of_eq rfl rfl rfl rfl rfl,
            ⟨htiling.ok.width_lt, htiling.ok.height_lt, htiling.ok.inside, Nat.zero_le _⟩, htiling.inside⟩
        exact wp_mono (ih hnext) fun _ _ ha => ha.of_le ht.buf_le
      · rename_i hx
        have hnext : Tiling { c₁ with tileX := c₁.tileX + 16 } :=
          ⟨htiling.live.of_eq rfl rfl rfl rfl rfl,
            ⟨htiling.ok.width_lt, htiling.ok.height_lt, htiling.ok.inside, by simp only; omega⟩,
            htiling.inside⟩
        exact wp_mono (ih hnext) fun _ _ ha => ha.of_le ht.buf_le

theorem decodeHextile_after (h : Tiling c) : wp F decodeHextile (After c) c :=
  hextileLoop_after (hextilesLeft c + 1) h

end LvdTerm.Vnc
