import LvdTerm.Vnc.Painting
import LvdTerm.Vnc.Repaint
import LvdTerm.Vnc.ZrleDecode

/-!
# VNC client: a rectangle touches only itself

On a desktop of the size the client itself accepts, no rectangle overflows a size or leaves its
buffers, `m_work` changes inside the rectangle only and `m_fb` not at all. CopyRect moves the pixels
that were there before, however source and destination overlap.
-/
namespace LvdTerm.Vnc

open Lib Lib.Action

variable {E : Env} {F : Fault → Prop} {c c' : VncClient E}

/-- What decoding the rectangle that has been entered does to the images, as far as its data goes. -/
structure TouchesOnlyRect (c : VncClient E) : Prop where
  /-- The one undefined read there is: a palette colour that was never sent. -/
  safe : ∀ f, decodeRect c.encoding c = .error f → f = .uninitialised
  size : ∀ done c', decodeRect c.encoding c = .ok (done, c') → c'.work.width = c.work.width ∧ c'.work.height = c.work.height
  outside : ∀ done c', decodeRect c.encoding c = .ok (done, c') → ∀ x y, ¬ c.rect.Mem x y →
    c'.work.pixel x y = c.work.pixel x y
  fb : ∀ done c', decodeRect c.encoding c = .ok (done, c') → c'.fb = c.fb
  /-- Whatever colour it has. -/
  zrle : ∀ payload, ∀ w ∈ (zrleDecode (zrleTiles c.rect) payload).writes, c.rect.Mem w.x w.y

/-- The source of the CopyRect rectangle at the front of the data lies inside the screen. -/
def SourceInside (c : VncClient E) : Prop :=
  be16 c.buf 0 + c.rect.w ≤ c.work.width ∧ be16 c.buf 2 + c.rect.h ≤ c.work.height

/-- What decoding a CopyRect rectangle does. -/
structure CopiesRect (c : VncClient E) : Prop where
  copies : 4 ≤ c.buf.length → SourceInside c → ∃ c', decodeRect encCopyRect c = .ok (true, c') ∧
    ∀ col < c.rect.w, ∀ row < c.rect.h,
      c'.work.pixel (c.rect.x + col) (c.rect.y + row) = c.work.pixel (be16 c.buf 0 + col) (be16 c.buf 2 + row)
  rejects : 4 ≤ c.buf.length → ¬ SourceInside c → ∃ c', decodeRect encCopyRect c = .ok (false, c') ∧
    c'.stage = .idle ∧ c'.work = c.work

/-! ## CopyRect -/

theorem Rect.contains_iff {a r : Rect} (ha : a.isNull = false) (hr : r.isNull = false) :
    a.contains r = true ↔ a.x ≤ r.x ∧ r.x + r.w ≤ a.x + a.w ∧ a.y ≤ r.y ∧ r.y + r.h ≤ a.y + a.h := by
  simp [Rect.contains, ha, hr]

theorem sourceInside_iff (haccepted : c.work.rect.contains c.rect = true) :
    c.work.rect.contains ⟨be16 c.buf 0, be16 c.buf 2, c.rect.w, c.rect.h⟩ = true ↔ SourceInside c := by
  have hrect := Rect.not_null_of_contains haccepted
  have hsource : Rect.isNull ⟨be16 c.buf 0, be16 c.buf 2, c.rect.w, c.rect.h⟩ = false := hrect
  have hwork : c.work.rect.isNull = false := by
    cases h : c.work.rect.isNull with
    | false => rfl
    | true => simp [Rect.contains, h] at haccepted
  rw [Rect.contains_iff hwork hsource]
  simp [SourceInside, Image.rect]

/-- What is copied is a picture of the size of the rectangle, unless there is nothing to copy. -/
theorem drawn_copy (i : Image) (x y : Nat) (r : Rect) (hr : r.isNull = false) :
    i.drawn ⟨r.x, r.y, (i.copy ⟨x, y, r.w, r.h⟩).width, (i.copy ⟨x, y, r.w, r.h⟩).height⟩ (i.copy ⟨x, y, r.w, r.h⟩).pixel =
      i.drawn r fun col row => i.pixel (x + col) (y + row) := by
  have hnull : Rect.isNull ⟨x, y, r.w, r.h⟩ = false := hr
  unfold Image.copy
  rw [hnull, if_neg (by decide)]
  split
  next hempty =>
    calc i.drawn ⟨r.x, r.y, Image.null.width, Image.null.height⟩ Image.null.pixel = i := Image.drawn_empty i _ (.inl rfl)
      _ = i.drawn r fun col row => i.pixel (x + col) (y + row) := by
        rw [Image.drawn_empty i (r := r) _ hempty]
  next => rfl

/-- The client after a CopyRect rectangle. -/
def copied (c : VncClient E) : VncClient E :=
  { c with
    buf := c.buf.drop 4
    work := c.work.drawn c.rect fun col row => c.work.pixel (be16 c.buf 0 + col) (be16 c.buf 2 + row)
    dirty := c.dirty.united c.rect }

theorem wp_copied (haccepted : c.work.rect.contains c.rect = true) :
    wp F (pasteRows c.rect.x c.rect.y (c.work.copy ⟨be16 c.buf 0, be16 c.buf 2, c.rect.w, c.rect.h⟩))
      (fun _ c' => { c' with dirty := c'.dirty.united c.rect } = copied c) { c with buf := c.buf.drop 4 } := by
  obtain ⟨hx, hy⟩ := Image.le_of_rect_contains haccepted
  have hrect := Rect.not_null_of_contains haccepted
  have hsize := Image.copy_holds (i := c.work) (r := ⟨be16 c.buf 0, be16 c.buf 2, c.rect.w, c.rect.h⟩) hrect
  simp only at hsize
  refine wp_mono (wp_pasteRows ⟨?_, ?_⟩) fun _ c' hc' => ?_
  · simp only
    omega
  · simp only
    omega
  · rw [hc']
    exact congrArg (fun i => { c with buf := c.buf.drop 4, work := i, dirty := c.dirty.united c.rect })
      (drawn_copy c.work (be16 c.buf 0) (be16 c.buf 2) c.rect hrect)

/-- CopyRect up to the question whether the source is inside the screen. -/
theorem decodeCopyRect_eq (hlen : 4 ≤ c.buf.length) :
    decodeCopyRect c =
      (if !c.work.rect.contains ⟨be16 c.buf 0, be16 c.buf 2, c.rect.w, c.rect.h⟩ then failStep "The server sent an invalid copy region"
      else do
        pasteRows c.rect.x c.rect.y (c.work.copy ⟨be16 c.buf 0, be16 c.buf 2, c.rect.w, c.rect.h⟩)
        addDirty c.rect
        pure true : ClientM E Bool) { c with buf := c.buf.drop 4 } := by
  unfold decodeCopyRect
  rw [need_enough hlen, bind_of_ok (u16_apply (by omega)), bind_of_ok (u16_apply (by omega)), bind_of_ok (gets_apply _ _),
    bind_of_ok (gets_apply _ _)]
  exact bind_of_ok (consume_apply hlen)

theorem decodeCopyRect_apply (hlen : 4 ≤ c.buf.length) (haccepted : c.work.rect.contains c.rect = true) (hsource : SourceInside c) :
    decodeCopyRect c = .ok (true, copied c) := by
  rw [decodeCopyRect_eq hlen, if_neg (by simp [(sourceInside_iff haccepted).mpr hsource])]
  have hpaste := wp_copied (F := fun _ => False) haccepted
  unfold wp at hpaste
  split at hpaste
  next _ c' hok => exact (bind_of_ok hok).trans (congrArg (fun c' => Except.ok (true, c')) hpaste)
  next => exact hpaste.elim

theorem copiesRect (hf : c.failedAlready = false) (haccepted : c.work.rect.contains c.rect = true) : CopiesRect c where
  copies hlen hsource := by
    refine ⟨copied c, decodeCopyRect_apply hlen haccepted hsource, fun col hcol row hrow => ?_⟩
    exact Image.drawn_inside c.work c.rect (fun col row => c.work.pixel (be16 c.buf 0 + col) (be16 c.buf 2 + row)) hcol hrow
  rejects hlen hsource := by
    refine ⟨VncClient.failed "The server sent an invalid copy region" { c with buf := c.buf.drop 4 }, ?_, rfl, rfl⟩
    have hno : c.work.rect.contains ⟨be16 c.buf 0, be16 c.buf 2, c.rect.w, c.rect.h⟩ ≠ true :=
      fun h => hsource ((sourceInside_iff haccepted).mp h)
    show decodeCopyRect c = _
    rw [decodeCopyRect_eq hlen, if_pos (by simpa using hno)]
    exact failStep_apply hf

/-! ## ZRLE -/

theorem zrleDecode_noFault {ts : List Tile} {d : List UInt8}
    (h : ∀ p ∈ zrleVisited ts d, ∀ f, (zrleTile p.1 p.2).finish ≠ .fault f) (f : Fault) : (zrleDecode ts d).finish ≠ .fault f := by
  induction ts generalizing d with
  | nil => exact fun hf => by cases hf
  | cons t ts ih =>
    have ht := h (t, d) List.mem_cons_self
    cases hfinish : (zrleTile t d).finish with
    | ok rest =>
      rw [zrleDecode_cons_ok ts hfinish]
      refine ih fun p hp => h p ?_
      rw [zrleVisited, hfinish]
      exact List.mem_cons_of_mem _ hp
    | corrupt =>
      rw [zrleDecode_cons_corrupt hfinish]
      exact fun hf => by cases hf
    | fault f' => exact absurd hfinish (ht f')

theorem zrleState_ok (c : VncClient E) : ∃ state stream, zrleState c = .ok (state, { c with zrleStream := stream }) ∧
    ∀ zs, state = some ⟨some zs⟩ → c.zrleStream = some ⟨some zs⟩ ∨ c.zrleStream = none ∧ E.zlib.inflateInit = some zs := by
  unfold zrleState
  rw [bind_of_ok (gets_apply _ _)]
  cases hstream : c.zrleStream with
  | some s =>
    refine ⟨some s, c.zrleStream, rfl, fun zs hzs => .inl ?_⟩
    rwa [hstream] at *
  | none =>
    cases hinit : E.zlib.inflateInit with
    | none =>
      refine ⟨none, some ⟨none⟩, ?_, fun zs hzs => by cases hzs⟩
      simp only [InflateState.reset, hinit, Option.map_none]
      rfl
    | some zs =>
      refine ⟨some ⟨some zs⟩, some ⟨some zs⟩, ?_, fun zs' hzs => .inr ⟨rfl, ?_⟩⟩
      · simp only [InflateState.reset, hinit, Option.map_some]
        rfl
      · cases hzs
        rfl

/-- Nothing goes wrong before there is a payload. -/
theorem stepZrle_error {f : Fault} (hf : c.failedAlready = false) (hin : c.work.rect.contains c.rect = true)
    (h : stepZrle c = .error f) : ∃ payload stream, Carries c payload stream := by
  unfold stepZrle at h
  by_cases hlen : 4 ≤ c.buf.length
  swap
  · rw [need_short hlen] at h
    cases h
  rw [need_enough hlen, bind_of_ok (u32_apply (by omega))] at h
  by_cases hsize : be32 c.buf 0 > 64 * 2 ^ 20
  · rw [if_pos hsize, failStep_apply hf] at h
    cases h
  rw [if_neg hsize] at h
  by_cases harrived : 4 + be32 c.buf 0 ≤ c.buf.length
  swap
  · rw [need_short harrived] at h
    cases h
  obtain ⟨state, stream, hstate, hfrom⟩ := zrleState_ok c
  rw [need_enough harrived, bind_of_ok hstate] at h
  rcases state with _ | ⟨_ | zs⟩
  · simp only at h
    rw [failStep_apply (by exact hf)] at h
    cases h
  · simp only at h
    rw [bind_of_ok (bytes_apply (by exact harrived)), failStep_apply (by exact hf)] at h
    cases h
  · simp only at h
    rw [bind_of_ok (bytes_apply (by exact harrived))] at h
    simp only at h
    rw [bind_of_ok (modify_apply _ _)] at h
    cases hchunk : inflateAll zs ((c.buf.drop 4).take (be32 c.buf 0)) with
    | mk ok stream payload =>
      cases ok with
      | false =>
        rw [hchunk, if_pos (show (!false) = true from rfl), failStep_apply (by exact hf)] at h
        cases h
      | true => exact ⟨payload, stream, hf, hin, harrived, by omega, zs, hfrom zs rfl, hchunk⟩

/-- A payload whose runs fit an `int` leaves one fault. -/
theorem stepZrle_safe (h : Tiling c) (hin : c.work.rect.contains c.rect = true)
    (hfit : ∀ payload stream, Carries c payload stream → RunsFit c.rect payload) {f : Fault} (hfault : stepZrle c = .error f) :
    f = .uninitialised := by
  obtain ⟨payload, stream, hcarries⟩ := stepZrle_error h.live.failed hin hfault
  have ht : Tiling (inflated c stream) :=
    ⟨h.live.of_eq rfl rfl rfl rfl rfl, ⟨h.ok.width_lt, h.ok.height_lt, h.ok.inside, h.ok.tile⟩, h.inside⟩
  have hsafe := zrleSafe_of_runsFit hin (hfit payload stream hcarries)
  have hno := zrleDecode_noFault (fun p hp => (hsafe p hp).noFault) .runOverflow
  rw [hcarries.stepZrle] at hfault
  have hafter : wp (fun f => f = .uninitialised) (zrleRect payload) (After (inflated c stream)) (inflated c stream) :=
    zrleRect_after ht (fun hrun => absurd hrun hno) rfl
  have hbenign := wp_error hafter hfault
  exact hbenign

/-! ## Sizes -/

/-- The encodings decoded into the rectangle. -/
def pixelEncodings : List Int := [encRaw, encCopyRect, encHextile, encTight, encZrle]

/-- The desktop has at most as many columns and rows as a DesktopSize rectangle may ask for. -/
def Usual (c : VncClient E) : Prop := c.work.width ≤ kMaxDesktopDimension ∧ c.work.height ≤ kMaxDesktopDimension

theorem Usual.pixels (h : Usual c) (hin : Inside c) : c.rect.w * c.rect.h ≤ 16384 * 16384 := by
  have hmax : kMaxDesktopDimension = 16384 := rfl
  have hw : c.rect.w ≤ 16384 := by
    have := h.1
    have := hin.1
    omega
  have hh : c.rect.h ≤ 16384 := by
    have := h.2
    have := hin.2
    omega
  exact Nat.mul_le_mul hw hh

theorem tightRowBytes_le {w rowBytes : Nat} {data : List UInt8} (h : tightRowBytes w data = some rowBytes) : rowBytes ≤ w * 3 := by
  simp only [tightRowBytes, Option.bind_eq_bind, Option.bind_eq_some_iff] at h
  obtain ⟨control, -, h⟩ := h
  split at h
  · cases h
  split at h
  · cases h
    exact Nat.le_refl _
  obtain ⟨filter, -, h⟩ := Option.bind_eq_some_iff.mp h
  split at h
  · obtain ⟨size, -, h⟩ := Option.bind_eq_some_iff.mp h
    split at h
    · cases h
    · cases h
      split <;> omega
  · split at h
    · cases h
    · cases h
      exact Nat.le_refl _

theorem Usual.tightFits (h : Usual c) (hin : Inside c) : TightFits c := by
  intro control rowBytes _ _ hrow
  have hpixels := h.pixels hin
  calc rowBytes * c.rect.h ≤ c.rect.w * 3 * c.rect.h := Nat.mul_le_mul_right _ (tightRowBytes_le hrow)
    _ = c.rect.w * c.rect.h * 3 := Nat.mul_right_comm ..
    _ < 2 ^ 31 := by omega

/-- No decoder leaves its buffers. -/
theorem decodeRect_safe (h : Tiling c) (hin : c.work.rect.contains c.rect = true) (husual : Usual c)
    (hfit : ∀ payload stream, Carries c payload stream → RunsFit c.rect payload) (henc : c.encoding ∈ pixelEncodings) {f : Fault}
    (hfault : decodeRect c.encoding c = .error f) : f = .uninitialised := by
  have hpixels := husual.pixels h.inside
  have hraw : wp (fun _ => False) decodeRaw (After c) c := decodeRaw_after h.live h.inside h.inv fun _ => .inl (by omega)
  have hcopy : wp (fun _ => False) decodeCopyRect (After c) c := decodeCopyRect_after h.live h.inside h.inv
  have hhextile : wp (fun _ => False) (thenDirty decodeHextile) (After c) c := thenDirty_after (decodeHextile_after h)
  have htight : wp (fun _ => False) (thenDirty stepTight) (After c) c :=
    thenDirty_after (stepTight_after h fun hno => absurd (husual.tightFits h.inside) hno)
  have hnever {m : ClientM E Bool} (hm : wp (fun _ => False) m (After c) c) (hf : m c = .error f) : f = .uninitialised :=
    (wp_error hm hf).elim
  simp only [pixelEncodings, List.mem_cons, List.not_mem_nil, or_false] at henc
  rcases henc with he | he | he | he | he <;> rw [he] at hfault
  · exact hnever hraw hfault
  · exact hnever hcopy hfault
  · exact hnever hhextile hfault
  · exact hnever htight hfault
  · exact stepZrle_safe h hin hfit hfault

/-! ## In every run -/

theorem touchesOnlyRect (h : Tiling c) (hin : c.work.rect.contains c.rect = true) (husual : Usual c)
    (hfit : ∀ payload stream, Carries c payload stream → RunsFit c.rect payload) (henc : c.encoding ∈ pixelEncodings) :
    TouchesOnlyRect c := by
  have hresize : c.encoding ≠ encDesktopSize := by
    intro he
    rw [he] at henc
    exact absurd henc (by decide)
  have hdec : ∀ done c', decodeRect c.encoding c = .ok (done, c') → Decoded c.rect c c' := fun done c' hok =>
    decodeRect_decodes hresize c done c' hok rfl
  exact {
    safe := fun f => decodeRect_safe h hin husual hfit henc
    size := fun done c' hok => ⟨(hdec done c' hok).width, (hdec done c' hok).height⟩
    outside := fun done c' hok => (hdec done c' hok).outside
    fb := fun done c' hok => (hdec done c' hok).fb
    zrle := fun _ => zrleDecode_mem }

theorem Inv.tiling {c₁ : VncClient E} (h : Inv c) (hs : c.stage = .running) (hrect : pendingRect c = some c₁)
    (hin : c₁.work.rect.contains c₁.rect = true) : Tiling c₁ := by
  rcases pendingRect_cases hrect with ⟨hopen, rfl⟩ | ⟨-, rfl⟩
  · exact ⟨.of_inv h hs, h.rect hs hopen, Image.le_of_rect_contains hin⟩
  · exact ⟨(Live.of_inv h hs).of_eq rfl rfl rfl rfl rfl, ⟨be16_lt _ _, be16_lt _ _, .inr (.inr hin), Nat.zero_le _⟩,
      Image.le_of_rect_contains hin⟩

/-- The rectangle a run has come to touches only itself, and CopyRect moves what was there before. -/
theorem rect_touches_only_itself (E : Env) (provider : Option (Option String)) (encodings : List Int) (password : String)
    (marks : List Mark) (c c₁ : VncClient E) (hm : Moves (.connecting E provider encodings password) marks c)
    (hs : c.stage = .running) (hrect : pendingRect c = some c₁) (haccepted : c₁.work.rect.contains c₁.rect = true)
    (husual : Usual c₁) (henc : c₁.encoding ∈ pixelEncodings)
    (hshort : ∀ payload stream, Carries c₁ payload stream → payload.length < 2 ^ 23) :
    TouchesOnlyRect c₁ ∧ (c₁.encoding = encCopyRect → CopiesRect c₁) := by
  have htiling := (hm.inv (inv_connecting E provider encodings password)).tiling hs hrect haccepted
  refine ⟨touchesOnlyRect htiling haccepted husual (fun payload stream hcarries => ?_) henc,
    fun _ => copiesRect htiling.live.failed haccepted⟩
  have hlen := hshort payload stream hcarries
  exact runsFit_of_short _ _ (by omega)

/-- The white pixel is copied onto itself. -/
def copySent : VncClient .bare := appendChunk ([0, 0, 0, 0, 0, 1, 0, 1, 0, 0, 0, 1] ++ [0, 0, 0, 0]) whiteScreen

theorem rect_touches_only_itself_copy : TouchesOnlyRect (entered copySent) ∧
    ((entered copySent).encoding = encCopyRect → CopiesRect (entered copySent)) := by
  obtain ⟨marks, hmoves⟩ := whiteScreen_moves
  have hsent : Moves (.connecting .bare none [] "") marks copySent := by
    have happended := hmoves.tail (.arrive ([0, 0, 0, 0, 0, 1, 0, 1, 0, 0, 0, 1] ++ [0, 0, 0, 0]) (by decide +kernel))
    rwa [List.append_nil] at happended
  have hrect : pendingRect copySent = some (entered copySent) := by
    unfold pendingRect
    rw [if_neg (by decide +kernel), if_pos (by decide +kernel)]
  refine rect_touches_only_itself .bare none [] "" marks copySent (entered copySent) hsent (by decide +kernel) hrect
    (by decide +kernel) ⟨by decide +kernel, by decide +kernel⟩ (by decide +kernel) fun payload stream hcarries => ?_
  obtain ⟨zs, -, hall⟩ := hcarries.inflates
  have hempty : ((entered copySent).buf.drop 4).take (be32 (entered copySent).buf 0) = [] := by decide +kernel
  rw [hempty] at hall
  obtain rfl : [] = payload := congrArg Chunk.out hall
  decide

end LvdTerm.Vnc
