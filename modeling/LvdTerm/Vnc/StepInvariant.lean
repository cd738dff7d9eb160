import LvdTerm.Vnc.TightInvariant

/-!
# VNC client: every step keeps the invariant

ZRLE, the end of a rectangle and of an update, the server's messages, and from them
`step_next`: a step from a state that satisfies `Inv` leads to one, unless it meets a size
that does not fit an `int` (`SizesFit`), a run that overflows or a palette entry that was
never read. `run_inv` is the same for whole runs of socket events.
-/
namespace LvdTerm.Vnc

open Lib Action

variable {E : Env} {F : Fault → Prop} {c c' : VncClient E}

/-! ## ZRLE -/

theorem wp_drawWrites {ws : List Write} (hun : F .uninitialised)
    (hin : ∀ w ∈ ws, w.x < c.work.width ∧ w.y < c.work.height) :
    wp F (drawWrites ws) (fun _ => Painted c) c := by
  have hfrom : ∀ c', Painted c c' → wp F (drawWrites ws) (fun _ => Painted c) c' := by
    induction ws with
    | nil => exact fun c' hp => hp
    | cons w ws ih =>
      intro c' hp
      unfold drawWrites drawWrite
      cases w.color with
      | none =>
        simp only [wp_bind, wp_throw]
        exact hun
      | some color =>
        obtain ⟨hx, hy⟩ := hin w (List.mem_cons_self ..)
        simp only [wp_bind]
        exact wp_mono (wp_setPixel hp hx hy) fun _ c'' hp' =>
          ih (fun w hw => hin w (List.mem_cons_of_mem _ hw)) c'' hp'
  exact hfrom c (Painted.refl c)

theorem zrleRect_after {payload : List UInt8} (h : Tiling c)
    (hrun : (zrleDecode (zrleTiles c.rect) payload).finish = .fault .runOverflow → F .runOverflow) (hun : F .uninitialised) :
    wp F (zrleRect payload) (After c) c := by
  have hclip := zrleTiles_clipped c.rect
  have hin : ∀ w ∈ (zrleDecode (zrleTiles c.rect) payload).writes, w.x < c.work.width ∧ w.y < c.work.height := by
    intro w hw
    obtain ⟨t, ht, hc⟩ := zrleDecode_inside hclip w hw
    have htile := zrleTiles_inside c.rect t ht
    have h1 := h.inside.1
    have h2 := h.inside.2
    simp only [Tile.Contains] at hc
    omega
  unfold zrleRect
  simp only [wp_bind, wp_gets]
  refine wp_painted (wp_drawWrites hun hin) fun c₁ hp => ?_
  have hle : c₁.buf.length ≤ c.buf.length := Nat.le_of_eq (by rw [hp.buf])
  cases hf : (zrleDecode (zrleTiles c.rect) payload).finish with
  | fault f =>
    simp only [wp_throw]
    obtain rfl := zrleDecode_fault hclip hf
    exact hrun hf
  | corrupt => exact wp_failStep (h.live.painted hp).failed (.failed _ hle)
  | ok rest =>
    simp only [wp_bind, addDirty, wp_modify, wp_pure]
    exact .done hle ((h.live.painted hp).of_eq rfl rfl rfl rfl rfl)

/-- Only the ZRLE stream differs. -/
def ZrleStream (c c' : VncClient E) : Prop := ∃ s, c' = { c with zrleStream := s }

theorem ZrleStream.tiling (h : ZrleStream c c') (ht : Tiling c) : Tiling c' := by
  obtain ⟨_, rfl⟩ := h
  exact ⟨ht.live.of_eq rfl rfl rfl rfl rfl, ⟨ht.ok.width_lt, ht.ok.height_lt, ht.ok.inside, ht.ok.tile⟩,
    ht.inside⟩

theorem ZrleStream.buf (h : ZrleStream c c') : c'.buf = c.buf := by
  obtain ⟨_, rfl⟩ := h
  rfl

theorem wp_zrleState {Q : Option (InflateState E) → VncClient E → Prop}
    (h : ∀ s c', ZrleStream c c' → Q s c') : wp F zrleState Q c := by
  unfold zrleState
  simp only [wp_bind, wp_gets]
  cases c.zrleStream with
  | some s => exact h _ c ⟨c.zrleStream, rfl⟩
  | none =>
    cases (InflateState.mk none : InflateState E).reset with
    | none => exact h _ _ ⟨_, rfl⟩
    | some s => exact h _ _ ⟨_, rfl⟩

theorem stepZrle_after (h : Tiling c) (hrun : F .runOverflow) (hun : F .uninitialised) :
    wp F stepZrle (After c) c := by
  unfold stepZrle
  refine wp_need (.wait (Nat.le_refl _) h.inv) fun hlen => ?_
  simp only [wp_bind]
  refine wp_u32 (by omega) fun length _ => wp_ite (fun _ => ?_) (fun _ => ?_)
  · exact wp_failStep h.live.failed (.failed _ (Nat.le_refl _))
  · refine wp_need (.wait (Nat.le_refl _) h.inv) fun hlen' => ?_
    simp only [wp_bind]
    refine wp_zrleState fun state c₁ hs => ?_
    have ht := hs.tiling h
    have hle : c₁.buf.length ≤ c.buf.length := Nat.le_of_eq (by rw [hs.buf])
    cases state with
    | none => exact wp_failStep ht.live.failed (.failed _ hle)
    | some state =>
      simp only [wp_bind]
      refine wp_bytes (by rw [hs.buf]; exact hlen') fun input _ => ?_
      cases state.zs with
      | none => exact wp_failStep ht.live.failed (.failed _ hle)
      | some zs =>
        simp only [wp_bind, wp_modify]
        refine wp_ite (fun _ => ?_) (fun _ => ?_)
        · exact wp_failStep ht.live.failed (.failed _ hle)
        · simp only [wp_bind]
          refine wp_consume (by simp only [hs.buf]; exact hlen') ?_
          have ht₂ : Tiling { c₁ with
              zrleStream := some ⟨some (inflateAll zs input).stream⟩
              buf := c₁.buf.drop (4 + length) } :=
            ⟨ht.live.of_eq rfl rfl rfl rfl rfl,
              ⟨ht.ok.width_lt, ht.ok.height_lt, ht.ok.inside, ht.ok.tile⟩, ht.inside⟩
          refine wp_mono (zrleRect_after ht₂ (fun _ => hrun) hun) fun _ _ ha => ha.of_le ?_
          simp only [List.length_drop]
          omega

/-! ## The end of an update -/

theorem Rect.intersected_le (a b : Rect) :
    (a.intersected b).x + (a.intersected b).w ≤ b.x + b.w ∧
      (a.intersected b).y + (a.intersected b).h ≤ b.y + b.h := by
  unfold Rect.intersected
  split
  · simp only
    omega
  · split
    · simp only
      omega
    · simp only
      omega

/-- Only pixels of `m_fb` differ. -/
def Shown (c c' : VncClient E) : Prop := ∃ pixel, c' = { c with fb := ⟨c.fb.width, c.fb.height, pixel⟩ }

theorem wp_showRect {r : Rect} (hl : Live c) (hx : r.x + r.w ≤ c.work.width) (hy : r.y + r.h ≤ c.work.height) :
    wp F (showRect r) (fun _ => Shown c) c := by
  have hw := hl.screen.fb_width
  have hh := hl.screen.fb_height
  unfold showRect
  refine wp_forRange (I := fun _ => Shown c) (fun row c₁ hrow hs => ?_) ⟨c.fb.pixel, rfl⟩
  refine wp_forRange (I := fun _ => Shown c) (fun col c₂ hcol hs => ?_) hs
  obtain ⟨pixel, rfl⟩ := hs
  unfold wp showPixel
  rw [if_pos ⟨by simp only; omega, by simp only; omega, by simp only; omega, by simp only; omega⟩]
  exact ⟨_, rfl⟩

theorem wp_finishUpdate {Q : Unit → VncClient E → Prop} (hl : Live c)
    (h : ∀ c', Live c' → c'.buf = c.buf → c'.inRect = c.inRect → Q () c') : wp F finishUpdate Q c := by
  have hdirty := Rect.intersected_le c.dirty c.work.rect
  simp only [Image.rect, Nat.zero_add] at hdirty
  -- what is left once the rectangle is shown
  have hrest : ∀ c₁, Live c₁ → c₁.buf = c.buf → c₁.inRect = c.inRect →
      wp F (requestUpdate (!c.resized)) (fun _ c' => Q () { c' with resized := false }) c₁ := by
    intro c₁ hl₁ hbuf hin
    refine wp_requestUpdate hl₁.socket fun events => h _ ?_ hbuf hin
    exact hl₁.of_eq rfl rfl rfl rfl rfl
  have hc : Live { c with updates := c.updates + 1, dirty := ⟨0, 0, 0, 0⟩ } := hl.of_eq rfl rfl rfl rfl rfl
  unfold finishUpdate
  simp only [wp_bind, wp_gets, wp_modify]
  refine wp_ite (fun _ => ?_) (fun _ => ?_)
  · simp only [wp_bind, emit, wp_modify]
    refine wp_mono (wp_showRect hc hdirty.1 hdirty.2) fun _ c₁ hs => ?_
    obtain ⟨pixel, rfl⟩ := hs
    refine hrest _ ⟨hl.stage, hl.socket, hl.failed, ?_⟩ rfl rfl
    exact ⟨hl.screen.width_pos, hl.screen.height_pos, hl.screen.width_lt, hl.screen.height_lt,
      hl.screen.fb_width, hl.screen.fb_height⟩
  · simp only [wp_bind, wp_modify]
    exact hrest _ hc rfl rfl

/-! ## Rectangles -/

theorem decodeDesktopSize_after (hl : Live c) : wp F decodeDesktopSize (After c) c := by
  unfold decodeDesktopSize
  simp only [wp_bind, wp_gets]
  refine wp_ite (fun _ => wp_failStep hl.failed (.failed _ (Nat.le_refl _))) (fun hsize => ?_)
  simp only [wp_bind, allocFramebuffer, addDirty, emit, wp_modify, wp_pure]
  have hmax : kMaxDesktopDimension = 16384 := rfl
  refine .done (Nat.le_refl _) ⟨hl.stage, hl.socket, hl.failed, ?_⟩
  exact ⟨by simp only [Image.black]; omega, by simp only [Image.black]; omega,
    by simp only [Image.black]; omega, by simp only [Image.black]; omega, rfl, rfl⟩

theorem thenDirty_after {m : ClientM E Bool} (hm : wp F m (After c) c) : wp F (thenDirty m) (After c) c := by
  unfold thenDirty
  simp only [wp_bind]
  refine wp_mono hm fun done c₁ ha => ?_
  cases done with
  | false => exact ha
  | true =>
    simp only [if_true, wp_bind, wp_gets, addDirty, wp_modify, wp_pure]
    exact .done ha.buf_le ((ha.live rfl).of_eq rfl rfl rfl rfl rfl)

theorem decodeRect_after (hl : Live c) (hok : RectOk c) (hbuf : c.buf.length < 2 ^ 31 ∨ F .intOverflow)
    (hrun : F .runOverflow) (hun : F .uninitialised)
    (hover : c.encoding = encTight → c.work.rect.contains c.rect = true → ¬ TightFits c → F .intOverflow) :
    wp F (decodeRect c.encoding) (After c) c := by
  have hinv : Inv c := hl.inv fun _ => hok
  have hcontains : c.encoding ≠ encDesktopSize → c.encoding ≠ encLastRect →
      c.work.rect.contains c.rect = true := by
    intro h1 h2
    rcases hok.inside with h | h | h
    · exact absurd h h1
    · exact absurd h h2
    · exact h
  have htiling : c.encoding ≠ encDesktopSize → c.encoding ≠ encLastRect → Tiling c :=
    fun h1 h2 => ⟨hl, hok, Image.le_of_rect_contains (hcontains h1 h2)⟩
  unfold decodeRect
  refine wp_ite (fun he => ?_) (fun _ => wp_ite (fun he => ?_) (fun _ => wp_ite (fun he => ?_) (fun _ =>
    wp_ite (fun he => ?_) (fun _ => wp_ite (fun he => ?_) (fun _ => wp_ite (fun he => ?_) (fun _ =>
    wp_ite (fun he => ?_) (fun _ => ?_)))))))
  · exact decodeRaw_after hl (htiling (by rw [he]; decide) (by rw [he]; decide)).inside hinv
      fun hlen => hbuf.imp_left (Nat.lt_of_le_of_lt hlen)
  · exact decodeCopyRect_after hl (htiling (by rw [he]; decide) (by rw [he]; decide)).inside hinv
  · exact thenDirty_after (decodeHextile_after (htiling (by rw [he]; decide) (by rw [he]; decide)))
  · have h1 : c.encoding ≠ encDesktopSize := by rw [he]; decide
    have h2 : c.encoding ≠ encLastRect := by rw [he]; decide
    exact thenDirty_after (stepTight_after (htiling h1 h2) (hover he (hcontains h1 h2)))
  · exact stepZrle_after (htiling (by rw [he]; decide) (by rw [he]; decide)) hrun hun
  · exact .done (Nat.le_refl _) hl
  · exact decodeDesktopSize_after hl
  · exact wp_failStep hl.failed (.failed _ (Nat.le_refl _))

theorem wp_finishRect {Q : Bool → VncClient E → Prop} (hl : Live c)
    (h : ∀ c', Live c' → c'.buf = c.buf → c'.inRect = false → Q true c') : wp F finishRect Q c := by
  have hfinish : ∀ c₁, Live c₁ → c₁.buf = c.buf → c₁.inRect = false →
      wp F finishUpdate (fun _ => Q true) c₁ := by
    intro c₁ hl₁ hbuf hin
    exact wp_finishUpdate hl₁ fun c' h1 h2 h3 => h c' h1 (h2.trans hbuf) (h3.trans hin)
  unfold finishRect
  simp only [wp_bind, wp_modify, wp_gets]
  refine wp_ite (fun _ => wp_ite (fun _ => ?_) (fun _ => ?_)) (fun _ => ?_)
  · simp only [wp_bind, wp_modify, wp_pure]
    exact hfinish _ (hl.of_eq rfl rfl rfl rfl rfl) rfl rfl
  · exact h _ (hl.of_eq rfl rfl rfl rfl rfl) rfl rfl
  · simp only [wp_bind, wp_modify]
    refine wp_ite (fun _ => ?_) (fun _ => ?_)
    · simp only [wp_bind, wp_pure]
      exact hfinish _ (hl.of_eq rfl rfl rfl rfl rfl) rfl rfl
    · exact h _ (hl.of_eq rfl rfl rfl rfl rfl) rfl rfl

theorem continueRect_spec (hl : Live c) (hok : RectOk c) (hbuf : c.buf.length < 2 ^ 31 ∨ F .intOverflow)
    (hrun : F .runOverflow) (hun : F .uninitialised)
    (hover : c.encoding = encTight → c.work.rect.contains c.rect = true → ¬ TightFits c → F .intOverflow) :
    wp F continueRect (fun done c' => Inv c' ∧ c'.buf.length ≤ c.buf.length ∧
      (done = true → c'.inRect = false)) c := by
  unfold continueRect
  simp only [wp_bind, wp_gets]
  refine wp_mono (decodeRect_after hl hok hbuf hrun hun hover) fun done c₁ ha => ?_
  cases done with
  | false => exact ⟨ha.inv rfl, ha.buf_le, fun h => (by cases h)⟩
  | true =>
    refine wp_finishRect (ha.live rfl) fun c' hl' hbuf' hin => ?_
    refine ⟨hl'.inv fun h => ?_, by rw [hbuf']; exact ha.buf_le, fun _ => hin⟩
    rw [hin] at h
    cases h

/-! ## Entering a rectangle -/

/-- Big-endian values, read off the data. -/
def be16 (d : List UInt8) (off : Nat) : Nat := (d.getD off 0).toNat * 256 + (d.getD (off + 1) 0).toNat

def be32 (d : List UInt8) (off : Nat) : Nat := be16 d off * 65536 + be16 d (off + 2)

theorem u8_apply {off : Nat} (h : off < c.buf.length) : u8 off c = .ok (c.buf.getD off 0, c) := by
  unfold u8
  rw [List.getD_eq_getElem?_getD, List.getElem?_eq_getElem h]
  rfl

theorem u16_apply {off : Nat} (h : off + 2 ≤ c.buf.length) : u16 off c = .ok (be16 c.buf off, c) := by
  unfold u16
  rw [bind_of_ok (u8_apply (by omega)), bind_of_ok (u8_apply (by omega))]
  rfl

theorem u32_apply {off : Nat} (h : off + 4 ≤ c.buf.length) : u32 off c = .ok (be32 c.buf off, c) := by
  unfold u32
  rw [bind_of_ok (u16_apply (by omega)), bind_of_ok (u16_apply (by omega))]
  rfl

/-- The client in the rectangle whose header is at the front of the data. -/
def entered (c : VncClient E) : VncClient E :=
  { c with
    buf := c.buf.drop 12
    rect := ⟨be16 c.buf 0, be16 c.buf 2, be16 c.buf 4, be16 c.buf 6⟩
    encoding := toInt32 (be32 c.buf 8)
    inRect := true
    tileX := 0
    tileY := 0
    hexBg := qRgb 0 0 0
    hexFg := qRgb 255 255 255 }

/-- The client in the rectangle it is about to decode, if there is one. -/
def pendingRect (c : VncClient E) : Option (VncClient E) :=
  if c.inRect then some c
  else if 0 < c.rectsLeft ∧ 12 ≤ c.buf.length then some (entered c)
  else none

/-- The condition on a state before a step: a Tight rectangle it is about to decode has
rows whose bytes fit an `int`. -/
def SizesFit (c : VncClient E) : Prop :=
  c.stage = .running → ∀ c', pendingRect c = some c' → c'.encoding = encTight →
    c'.work.rect.contains c'.rect = true → TightFits c'

theorem be16_lt (d : List UInt8) (off : Nat) : be16 d off < 2 ^ 16 := by
  have h1 := (d.getD off 0).toNat_lt
  have h2 := (d.getD (off + 1) 0).toNat_lt
  unfold be16
  omega

theorem wp_enterRect {Q : Bool → VncClient E → Prop} (hl : Live c) (hlen : 12 ≤ c.buf.length)
    (hfail : ∀ message, Q false ((entered c).failed message))
    (h : RectOk (entered c) → Q true (entered c)) : wp F enterRect Q c := by
  unfold enterRect
  unfold wp
  rw [bind_of_ok (u16_apply (by omega)), bind_of_ok (u16_apply (by omega)), bind_of_ok (u16_apply (by omega)),
    bind_of_ok (u16_apply (by omega)), bind_of_ok (u32_apply (by omega))]
  show wp F _ Q c
  simp only [wp_bind]
  refine wp_consume hlen ?_
  simp only [wp_modify, wp_gets]
  refine wp_ite (fun _ => wp_failStep hl.failed (hfail _)) (fun hin => ?_)
  refine h ⟨be16_lt _ _, be16_lt _ _, ?_, Nat.zero_le _⟩
  by_cases h1 : (entered c).encoding = encDesktopSize
  · exact .inl h1
  · by_cases h2 : (entered c).encoding = encLastRect
    · exact .inr (.inl h2)
    · refine .inr (.inr ?_)
      cases hc : (entered c).work.rect.contains (entered c).rect with
      | true => rfl
      | false => exact absurd ⟨h1, h2, congrArg (!·) hc⟩ hin

theorem stepRect_next (h : Inv c) (hs : c.stage = .running) (hleft : c.inRect = false → 0 < c.rectsLeft)
    (hbuf : c.buf.length < 2 ^ 31 ∨ F .intOverflow) (hrun : F .runOverflow) (hun : F .uninitialised)
    (hover : ¬ SizesFit c → F .intOverflow) : wp F stepRect (Next c) c := by
  have hl := Live.of_inv h hs
  -- a size that does not fit, in the rectangle that is decoded
  have hsize : ∀ c', pendingRect c = some c' → c'.encoding = encTight →
      c'.work.rect.contains c'.rect = true → ¬ TightFits c' → F .intOverflow :=
    fun c' hp he hc hno => hover fun hfit => hno (hfit hs c' hp he hc)
  unfold stepRect
  simp only [wp_bind, wp_gets]
  refine wp_ite (fun hin => ?_) (fun hin => ?_)
  · have hp : pendingRect c = some c := by rw [pendingRect, if_pos hin]
    refine wp_mono (continueRect_spec hl (h.rect hs hin) hbuf hrun hun (hsize c hp)) ?_
    rintro done c' ⟨hinv, hle, hdone⟩
    refine ⟨hinv, hle, fun hd => ?_⟩
    unfold stepsLeft
    rw [hin, hdone hd]
    simp only [if_true, Bool.false_eq_true, if_false]
    omega
  · have hin : c.inRect = false := by simpa using hin
    refine wp_need (.wait h) fun hlen => ?_
    have hp : pendingRect c = some (entered c) := by
      rw [pendingRect, hin, if_neg (by decide), if_pos ⟨hleft hin, hlen⟩]
    have hle : (entered c).buf.length + 12 = c.buf.length := by
      simp only [entered, List.length_drop]
      omega
    simp only [wp_bind]
    refine wp_enterRect hl hlen (fun message => .failed message (by omega)) fun hok => ?_
    have hl' : Live (entered c) := hl.of_eq rfl rfl rfl rfl rfl
    refine wp_mono (continueRect_spec hl' hok (hbuf.imp_left (by omega)) hrun hun (hsize _ hp)) ?_
    rintro done c' ⟨hinv, hle', _⟩
    refine ⟨hinv, by omega, fun _ => ?_⟩
    unfold stepsLeft
    split <;> omega

/-! ## Messages -/

/-- A message that has been used up, on a client that is otherwise as it was. -/
theorem Next.message {n : Nat} (hin : c.inRect = false) (hn : 0 < n) (hlen : n ≤ c.buf.length) (hl' : Live c') (hin' : c'.inRect = false)
    (hbuf : c'.buf = c.buf.drop n) (done : Bool) : Next c done c' := by
  refine .after hn hlen (hl'.inv fun hr => ?_) (hin'.trans hin.symm) hbuf
  rw [hin'] at hr
  cases hr

theorem serverBell_next (hl : Live c) (hin : c.inRect = false) (hlen : 1 ≤ c.buf.length) : wp F serverBell (Next c) c := by
  unfold serverBell emit
  simp only [wp_bind, wp_modify, wp_pure]
  refine wp_consume hlen ?_
  refine .message hin (by decide) hlen ?_ ?_ rfl _
  · exact hl.of_eq rfl rfl rfl rfl rfl
  · exact hin

section Messages

variable (h : Inv c) (hl : Live c) (hin : c.inRect = false)

include h hl hin

theorem framebufferUpdate_next : wp F framebufferUpdate (Next c) c := by
  unfold framebufferUpdate
  refine wp_need (.wait h) fun hlen => ?_
  simp only [wp_bind]
  refine wp_u16 (by omega) fun count _ => ?_
  simp only [wp_modify]
  refine wp_consume hlen (wp_ite (fun _ => ?_) (fun _ => ?_))
  · simp only [wp_bind, wp_pure]
    refine wp_finishUpdate (hl.of_eq rfl rfl rfl rfl rfl) fun c' hl' hbuf hin' => ?_
    exact .message hin (by decide) hlen hl' (hin'.trans hin) hbuf _
  · rw [wp_pure]
    refine .message hin (by decide) hlen ?_ ?_ rfl _
    · exact hl.of_eq rfl rfl rfl rfl rfl
    · exact hin

theorem setColourMapEntries_next : wp F setColourMapEntries (Next c) c := by
  unfold setColourMapEntries
  refine wp_need (.wait h) fun hlen => ?_
  simp only [wp_bind]
  refine wp_u16 (by omega) fun colours _ => wp_int32 (fun hno => absurd hno (by omega)) fun _ => ?_
  refine wp_need (.wait h) fun hlen' => ?_
  simp only [wp_bind, wp_pure]
  refine wp_consume hlen' ?_
  refine .message hin (by omega) hlen' ?_ ?_ rfl _
  · exact hl.of_eq rfl rfl rfl rfl rfl
  · exact hin

theorem serverCutText_next : wp F serverCutText (Next c) c := by
  unfold serverCutText emit
  refine wp_need (.wait h) fun hlen => ?_
  simp only [wp_bind]
  refine wp_u32 (by omega) fun length _ => wp_ite (fun _ => ?_) (fun _ => wp_need (.wait h) fun hlen' => ?_)
  · exact wp_failStep hl.failed (.failed _ (Nat.le_refl _))
  · simp only [wp_bind, wp_modify, wp_pure]
    refine wp_bytes hlen' fun text _ => wp_consume hlen' ?_
    refine .message hin (by omega) hlen' ?_ ?_ rfl _
    · exact hl.of_eq rfl rfl rfl rfl rfl
    · exact hin

theorem serverMessage_next : wp F serverMessage (Next c) c := by
  unfold serverMessage
  refine wp_need (.wait h) fun hlen => ?_
  simp only [wp_bind]
  refine wp_u8 (by omega) fun type _ => ?_
  refine wp_ite (fun _ => framebufferUpdate_next h hl hin) (fun _ => ?_)
  refine wp_ite (fun _ => setColourMapEntries_next h hl hin) (fun _ => ?_)
  refine wp_ite (fun _ => serverBell_next hl hin hlen) (fun _ => ?_)
  refine wp_ite (fun _ => serverCutText_next h hl hin) (fun _ => ?_)
  exact wp_failStep hl.failed (.failed _ (Nat.le_refl _))

end Messages

/-! ## Steps -/

/-- The step lemma. -/
theorem step_next (h : Inv c) (hbuf : c.buf.length < 2 ^ 31 ∨ F .intOverflow) (hrun : F .runOverflow) (hun : F .uninitialised)
    (hover : ¬ SizesFit c → F .intOverflow) : wp F step (Next c) c := by
  unfold step
  simp only [wp_bind, wp_gets]
  have early : c.stage ≠ .running → c.stage ≠ .idle → Early c := h.early_of
  cases hs : c.stage with
  | idle => exact .wait h
  | version => exact stepVersion_next h (early (by rw [hs]; decide) (by rw [hs]; decide))
  | securityTypes => exact stepSecurityTypes_next h (early (by rw [hs]; decide) (by rw [hs]; decide))
  | authChallenge => exact stepAuthChallenge_next h (early (by rw [hs]; decide) (by rw [hs]; decide))
  | securityResult => exact stepSecurityResult_next h (early (by rw [hs]; decide) (by rw [hs]; decide))
  | securityReason => exact stepSecurityReason_next h (early (by rw [hs]; decide) (by rw [hs]; decide))
  | serverInit => exact stepServerInit_next h (early (by rw [hs]; decide) (by rw [hs]; decide))
  | running =>
    have hl := Live.of_inv h hs
    unfold stepOf stepRunning
    simp only [wp_bind, wp_gets]
    refine wp_ite (fun hr => ?_) (fun hr => ?_)
    · refine stepRect_next h hs (fun hin => ?_) hbuf hrun hun hover
      rcases hr with hr | hr
      · rw [hin] at hr
        cases hr
      · exact hr
    · exact serverMessage_next h hl (by simpa using fun hin => hr (.inl hin))

end LvdTerm.Vnc
