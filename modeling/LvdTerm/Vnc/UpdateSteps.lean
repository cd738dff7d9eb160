import LvdTerm.Vnc.DecodeFrame

/-!
# VNC client: the steps of a running session

What one step may do to a client that is running: wait, answer a message, announce an update, decode
part of a rectangle, or complete one and perhaps the update with it. `stepRunning_cases` says it once,
`finished` is the exact effect of `finishUpdate`.
-/
namespace LvdTerm.Vnc

open Lib Lib.Action Lib.Frame

variable {E : Env}

/-! ## Completed rectangles are dirty -/

section Covers

variable {r : Rect} {c c' : VncClient E}

/-- All of `r` is dirty. -/
def Covered (r : Rect) (c : VncClient E) : Prop := ∀ x y, r.Mem x y → c.dirty.Mem x y

/-- A decoder that completes has reported its rectangle. -/
def Covers (r : Rect) (m : ClientM E Bool) : Prop := ∀ c c', c.rect = r → m c = .ok (true, c') → Covered r c'

theorem Covers.after {α : Type} {m : ClientM E α} {k : α → ClientM E Bool} (hm : Decodes r m) (hk : ∀ a, Covers r (k a)) :
    Covers r (m >>= k) := by
  intro c c' hr h
  obtain ⟨a, c₁, h₁, h₂⟩ := bind_eq_ok h
  exact hk a c₁ c' ((hm c a c₁ h₁ hr).rect.trans hr) h₂

theorem covers_look {β : Type} {f : VncClient E → β} {k : β → ClientM E Bool}
    (h : ∀ c : VncClient E, c.rect = r → Covers r (k (f c))) : Covers r (Action.gets f >>= k) := by
  intro c c' hr hm
  rw [bind_of_ok (gets_apply _ _)] at hm
  exact h c hr c c' hr hm

theorem covers_wait : Covers r (pure false : ClientM E Bool) := by
  intro c c' _ h
  cases h

theorem covers_failStep (message : String) : Covers r (failStep message : ClientM E Bool) := by
  intro c c' _ h
  obtain ⟨_, _, _, h⟩ := bind_eq_ok h
  cases h

theorem covers_throw (f : Fault) : Covers r (Action.throw f : ClientM E Bool) := by
  intro c c' _ h
  cases h

theorem covers_ite {p : Prop} [Decidable p] {m n : ClientM E Bool} (hm : Covers r m) (hn : Covers r n) :
    Covers r (if p then m else n) := by
  split
  · exact hm
  · exact hn

theorem covers_need {m : ClientM E Bool} (n : Nat) (hm : Covers r m) : Covers r (need n m) :=
  .after (keeps_gets _) fun _ => covers_ite covers_wait hm

/-- The rectangle is reported, and the rest only decodes. -/
theorem covers_addDirty {m : ClientM E Bool} (hm : Decodes r m) : Covers r (addDirty r >>= fun _ => m) := by
  intro c c' hr h x y hin
  obtain ⟨_, c₁, h₁, h₂⟩ := bind_eq_ok h
  cases h₁
  exact (hm _ _ _ h₂ hr).dirty x y (Rect.mem_united (.inr hin))

theorem covers_thenDirty {decode : ClientM E Bool} (h : Decodes r decode) : Covers r (thenDirty decode) := by
  refine .after h fun done => covers_ite (covers_look fun c hr => ?_) covers_wait
  subst hr
  exact covers_addDirty (keeps_pure true)

theorem covers_decodeRaw : Covers r (decodeRaw : ClientM E Bool) := by
  refine covers_look fun c hr => ?_
  subst hr
  refine covers_need _ (.after ?_ fun _ => covers_addDirty ((decodes_consume _).bind fun _ => keeps_pure true))
  refine keeps_forRange fun row hrow => (decodes_int32 _).bind fun base => keeps_forRange fun col hcol => ?_
  exact (keeps_of_readOnly (readOnly_pixelAt _)).bind fun color => decodes_setPixel color (Rect.mem_of_lt hcol hrow rfl rfl)

theorem covers_decodeCopyRect : Covers r (decodeCopyRect : ClientM E Bool) := by
  refine covers_need _ (.after (keeps_of_readOnly (readOnly_u16 _)) fun x => ?_)
  refine .after (keeps_of_readOnly (readOnly_u16 _)) fun y => covers_look fun c hr => covers_look fun c' _ => ?_
  subst hr
  refine .after (decodes_consume _) fun _ => ?_
  split
  · exact covers_failStep _
  · rename_i hin
    have hsize := copy_size hin
    exact .after (decodes_pasteRows (r := c.rect) hsize.1 hsize.2) fun _ => covers_addDirty (keeps_pure true)

theorem covers_zrleRect (payload : List UInt8) : Covers r (zrleRect payload : ClientM E Bool) := by
  refine covers_look fun c hr => .after (decodes_drawWrites fun w hw => ?_) fun _ => ?_
  · rw [← hr]
    exact zrleDecode_mem w hw
  · subst hr
    cases (zrleDecode (zrleTiles c.rect) payload).finish with
    | ok rest => exact covers_addDirty (keeps_pure true)
    | corrupt => exact covers_failStep _
    | fault f => exact covers_throw f

theorem covers_stepZrle : Covers r (stepZrle : ClientM E Bool) := by
  refine covers_need _ (.after (keeps_of_readOnly (readOnly_u32 _)) fun length => ?_)
  refine covers_ite (covers_failStep _) (covers_need _ (.after decodes_zrleState fun state => ?_))
  cases state with
  | none => exact covers_failStep _
  | some state =>
    refine .after (decodes_bytes _ _) fun input => ?_
    cases state.zs with
    | none => exact covers_failStep _
    | some zs =>
      refine .after (decodes_modify fun c => .variables r c _ _ _ _ _ _ _) fun _ => covers_ite (covers_failStep _) ?_
      exact .after (decodes_consume _) fun _ => covers_zrleRect _

theorem covers_decodeRect {encoding : Int} (hd : encoding ≠ encDesktopSize) (hl : encoding ≠ encLastRect) :
    Covers r (decodeRect encoding : ClientM E Bool) := by
  refine covers_ite covers_decodeRaw (covers_ite covers_decodeCopyRect ?_)
  refine covers_ite (covers_thenDirty decodeHextile_decodes) (covers_ite (covers_thenDirty stepTight_decodes) ?_)
  rw [if_neg hl, if_neg hd]
  exact covers_ite covers_stepZrle (covers_failStep _)

end Covers

/-! ## The end of an update -/

section Finish

variable {c c' : VncClient E}

/-- The message of `requestUpdate`. -/
def updateRequest (incremental : Bool) (width height : Nat) : List UInt8 :=
  [3, if incremental then 1 else 0, 0, 0, 0, 0] ++ putU16 width ++ putU16 height

/-- What `requestUpdate` sends. -/
def requestEvents (incremental : Bool) (c : VncClient E) : List Event :=
  if !c.socket || c.work.isNull then [] else [.write (updateRequest incremental c.work.width c.work.height)]

theorem requestUpdate_ok {incremental : Bool} (h : requestUpdate incremental c = .ok ((), c')) :
    c' = { c with events := c.events ++ requestEvents incremental c } := by
  unfold requestUpdate at h
  rw [bind_of_ok (gets_apply _ _), bind_of_ok (gets_apply _ _)] at h
  unfold requestEvents
  split at h
  · rename_i hno
    cases h
    rw [if_pos hno, List.append_nil]
  · rename_i hyes
    rw [if_neg hyes]
    unfold write at h
    split at h
    · cases h
      rfl
    · cases h

/-- The pixels of `r` come from `m_work`. -/
def showing (r : Rect) (c : VncClient E) : VncClient E :=
  { c with fb := ⟨c.fb.width, c.fb.height, fun x y => if r.Mem x y then c.work.pixel x y else c.fb.pixel x y⟩ }

theorem showPixel_ok {x y : Nat} (h : showPixel x y c = .ok ((), c')) : c' = { c with fb := c.fb.set x y (c.work.pixel x y) } := by
  unfold showPixel at h
  split at h
  · cases h
    rfl
  · cases h

/-- `row` rows and `col` pixels of the next have been copied. -/
theorem showRect_ok {r : Rect} (h : showRect r c = .ok ((), c')) : c' = showing r c := by
  -- only pixels of `m_fb` differ, and they are those that have been reached
  let seen (row col x y : Nat) : Prop := r.x ≤ x ∧ r.y ≤ y ∧ ((x < r.x + r.w ∧ y < r.y + row) ∨ (x < r.x + col ∧ y = r.y + row))
  let part (row col : Nat) (c₁ : VncClient E) : Prop := ∃ pixel, c₁ = { c with fb := ⟨c.fb.width, c.fb.height, pixel⟩ } ∧
    ∀ x y, pixel x y = c.work.pixel x y ∧ seen row col x y ∨ pixel x y = c.fb.pixel x y ∧ ¬ seen row col x y
  have hstart : part 0 0 c := ⟨c.fb.pixel, rfl, fun x y => .inr ⟨rfl, by simp only [seen]; omega⟩⟩
  have hloop : wp AnyFault (showRect r) (fun _ => part r.h 0) c := by
    refine wp_forRange (I := fun row => part row 0) (fun row c₁ _ hrow => ?_) hstart
    refine wp_mono (wp_forRange (I := fun col => part row col) (fun col c₂ hcol hpart => ?_) hrow) fun _ c₂ hpart => ?_
    · unfold wp
      cases hs : showPixel (r.x + col) (r.y + row) c₂ with
      | error f => trivial
      | ok p =>
        obtain ⟨⟨⟩, c₃⟩ := p
        obtain ⟨pixel, rfl, hpixel⟩ := hpart
        obtain rfl := showPixel_ok hs
        refine ⟨_, rfl, fun x y => ?_⟩
        have hxy := hpixel x y
        simp only [seen] at hxy ⊢
        by_cases hat : x = r.x + col ∧ y = r.y + row
        · left
          rw [if_pos hat, hat.1, hat.2]
          exact ⟨rfl, by omega⟩
        · rw [if_neg hat]
          rcases hxy with ⟨hp, hin⟩ | ⟨hp, hout⟩
          · exact .inl ⟨hp, by omega⟩
          · exact .inr ⟨hp, by omega⟩
    · obtain ⟨pixel, rfl, hpixel⟩ := hpart
      refine ⟨pixel, rfl, fun x y => ?_⟩
      have hxy := hpixel x y
      simp only [seen] at hxy ⊢
      rcases hxy with ⟨hp, hin⟩ | ⟨hp, hout⟩
      · exact .inl ⟨hp, by omega⟩
      · exact .inr ⟨hp, by omega⟩
  obtain ⟨pixel, rfl, hpixel⟩ := wp_ok hloop h
  have hsame : pixel = fun x y => if r.Mem x y then c.work.pixel x y else c.fb.pixel x y := by
    funext x y
    have hxy := hpixel x y
    simp only [seen] at hxy
    by_cases hin : r.Mem x y
    · rw [if_pos hin]
      unfold Rect.Mem at hin
      rcases hxy with ⟨hp, -⟩ | ⟨-, hout⟩
      · exact hp
      · exact absurd ⟨hin.1, hin.2.2.1, .inl ⟨hin.2.1, hin.2.2.2⟩⟩ hout
    · rw [if_neg hin]
      unfold Rect.Mem at hin
      rcases hxy with ⟨-, hseen⟩ | ⟨hp, -⟩
      · omega
      · exact hp
  rw [hsame]
  rfl

/-- What `finishUpdate` shows. -/
def toShow (c : VncClient E) : Rect := c.dirty.intersected c.work.rect

/-- The client after `finishUpdate`. -/
def finished (c : VncClient E) : VncClient E :=
  { c with
    updates := c.updates + 1
    dirty := ⟨0, 0, 0, 0⟩
    resized := false
    fb := ⟨c.fb.width, c.fb.height, fun x y => if (toShow c).Mem x y then c.work.pixel x y else c.fb.pixel x y⟩
    events := c.events ++ (if (toShow c).isValid then [.framebufferChanged (toShow c)] else [])
      ++ requestEvents (!c.resized) c }

theorem finishUpdate_ok (h : finishUpdate c = .ok ((), c')) : c' = finished c := by
  unfold finishUpdate at h
  rw [bind_of_ok (modify_apply _ _), bind_of_ok (gets_apply _ _), bind_of_ok (gets_apply _ _), bind_of_ok (gets_apply _ _),
    bind_of_ok (modify_apply _ _)] at h
  simp only at h
  rw [show c.dirty.intersected c.work.rect = toShow c from rfl] at h
  unfold finished
  by_cases hvalid : (toShow c).isValid = true
  · rw [if_pos hvalid] at h ⊢
    obtain ⟨⟨⟩, c₁, h₁, h⟩ := bind_eq_ok h
    obtain rfl := showRect_ok h₁
    obtain ⟨⟨⟩, c₂, h₂, h⟩ := bind_eq_ok h
    cases h₂
    obtain ⟨⟨⟩, c₃, h₃, h⟩ := bind_eq_ok h
    obtain rfl := requestUpdate_ok h₃
    cases h
    rfl
  · rw [if_neg hvalid] at h ⊢
    obtain ⟨⟨⟩, c₁, h₁, h⟩ := bind_eq_ok h
    obtain rfl := requestUpdate_ok h₁
    cases h
    -- an invalid rectangle has no pixels
    have hnone : (fun x y => if (toShow c).Mem x y then c.work.pixel x y else c.fb.pixel x y) = c.fb.pixel := by
      funext x y
      refine if_neg fun hin => hvalid ?_
      unfold Rect.Mem at hin
      exact decide_eq_true ⟨by omega, by omega⟩
    rw [hnone, List.append_nil]
    rfl

/-! ## The end of a rectangle -/

/-- Whether the rectangle is the last of its update. -/
def lastOfUpdate (c : VncClient E) : Bool :=
  if c.lastRectMode then c.encoding = encLastRect else c.rectsLeft - 1 = 0

/-- The client behind a rectangle, before `finishUpdate`. -/
def counted (c : VncClient E) : VncClient E :=
  if c.lastRectMode then
    if c.encoding = encLastRect then { c with inRect := false, lastRectMode := false, rectsLeft := 0 }
    else { c with inRect := false }
  else { c with inRect := false, rectsLeft := c.rectsLeft - 1 }

theorem counted_eq (c : VncClient E) :
    ∃ mode left, counted c = { c with inRect := false, lastRectMode := mode, rectsLeft := left } := by
  unfold counted
  split
  · split
    · exact ⟨false, 0, rfl⟩
    · exact ⟨c.lastRectMode, c.rectsLeft, rfl⟩
  · exact ⟨c.lastRectMode, c.rectsLeft - 1, rfl⟩

/-- The client after `if (rectDone)`. -/
def rectFinished (c : VncClient E) : VncClient E := if lastOfUpdate c then finished (counted c) else counted c

theorem rectFinished_encoding (c : VncClient E) : (rectFinished c).encoding = c.encoding := by
  obtain ⟨mode, left, heq⟩ := counted_eq c
  rw [rectFinished, heq]
  split <;> rfl

theorem finishRect_cases {done : Bool} (h : finishRect c = .ok (done, c')) :
    done = true ∧ c' = rectFinished c ∧ (lastOfUpdate c = true → finishUpdate (counted c) = .ok ((), c')) := by
  refine ⟨finishRect_true h, ?_⟩
  unfold finishRect at h
  rw [bind_of_ok (modify_apply _ _), bind_of_ok (gets_apply _ _), bind_of_ok (gets_apply _ _), bind_of_ok (gets_apply _ _)] at h
  simp only at h
  unfold rectFinished lastOfUpdate counted
  by_cases hmode : c.lastRectMode = true
  · rw [if_pos hmode] at h
    simp only [if_pos hmode, decide_eq_true_eq]
    by_cases hlast : c.encoding = encLastRect
    · rw [if_pos hlast] at h
      rw [bind_of_ok (modify_apply _ _)] at h
      obtain ⟨⟨⟩, c₁, h₁, h⟩ := bind_eq_ok h
      cases h
      rw [if_pos hlast, if_pos hlast]
      exact ⟨finishUpdate_ok h₁, fun _ => h₁⟩
    · rw [if_neg hlast] at h
      cases h
      rw [if_neg hlast, if_neg hlast]
      exact ⟨rfl, fun hl => absurd hl hlast⟩
  · rw [if_neg hmode] at h
    rw [bind_of_ok (modify_apply _ _)] at h
    simp only [if_neg hmode, decide_eq_true_eq]
    by_cases hleft : c.rectsLeft - 1 = 0
    · rw [if_pos hleft] at h
      obtain ⟨⟨⟩, c₁, h₁, h⟩ := bind_eq_ok h
      cases h
      rw [if_pos hleft]
      exact ⟨finishUpdate_ok h₁, fun _ => h₁⟩
    · rw [if_neg hleft] at h
      cases h
      rw [if_neg hleft]
      exact ⟨rfl, fun hl => absurd hl hleft⟩

/-! ## DesktopSize -/

/-- The client after a DesktopSize rectangle has been decoded. -/
def desktopSized (c : VncClient E) : VncClient E :=
  { c with
    work := .black c.rect.w c.rect.h
    fb := .black c.rect.w c.rect.h
    dirty := c.dirty.united ⟨0, 0, c.rect.w, c.rect.h⟩
    events := c.events ++ [.framebufferResized c.rect.w c.rect.h]
    resized := true }

/-- A size that the client accepts. -/
def sizeAllowed (r : Rect) : Prop := 0 < r.w ∧ 0 < r.h ∧ r.w ≤ kMaxDesktopDimension ∧ r.h ≤ kMaxDesktopDimension

theorem decodeRect_lastRect : decodeRect encLastRect c = .ok (true, c) := rfl

theorem decodeDesktopSize_ok {done : Bool} (hf : c.failedAlready = false) (h : decodeDesktopSize c = .ok (done, c')) :
    (done = false ∧ ∃ message, c' = c.failed message) ∨ (done = true ∧ sizeAllowed c.rect ∧ c' = desktopSized c) := by
  unfold decodeDesktopSize at h
  rw [bind_of_ok (gets_apply _ _)] at h
  split at h
  · rw [failStep, bind_of_ok (fail_apply _ hf)] at h
    cases h
    exact .inl ⟨rfl, _, rfl⟩
  · rename_i hsize
    cases h
    exact .inr ⟨rfl, ⟨by omega, by omega, by omega, by omega⟩, rfl⟩

end Finish

/-! ## Steps -/

section Steps

variable {c c' : VncClient E}

/-- The signals of the messages that are no update. -/
inductive Quiet : List Event → Prop where
  | none : Quiet []
  | bell : Quiet [.bell]
  | clipboard (text : List UInt8) : Quiet [.clipboardTextReceived text]

/-- The client behind the header of an update of `count` rectangles. -/
def announced (count : Nat) (c : VncClient E) : VncClient E :=
  { c with
    buf := c.buf.drop 4
    lastRectMode := decide (count = 0xFFFF)
    rectsLeft := if decide (count = 0xFFFF) then 1 else count }

/-- The header of an update of `count` rectangles is next. -/
structure Header (count : Nat) (c : VncClient E) : Prop where
  due : rectDue c = false
  type : c.buf.head? = some 0
  length : 4 ≤ c.buf.length
  count : count = be16 c.buf 2

/-- A message is next that is no update, or not enough of it. -/
structure NoUpdate (c : VncClient E) : Prop where
  due : rectDue c = false
  other : ¬ (c.buf.head? = some 0 ∧ 4 ≤ c.buf.length)

/-- What one step of a running client does. -/
inductive RunningStep (c : VncClient E) : Bool → VncClient E → Prop where
  | message (done : Bool) (buf : List UInt8) (events : List Event) (hother : NoUpdate c) (hquiet : Quiet events) :
      RunningStep c done { c with buf := buf, events := c.events ++ events }
  | refused (message : String) (hother : NoUpdate c) : RunningStep c false (c.failed message)
  | update (count : Nat) (hheader : Header count c) (hcount : count ≠ 0) : RunningStep c true (announced count c)
  | emptyUpdate (hheader : Header 0 c) (hfinish : finishUpdate (announced 0 c) = .ok ((), finished (announced 0 c))) :
      RunningStep c true (finished (announced 0 c))
  | noHeader (hdue : rectDue c = true) (hin : c.inRect = false) (hshort : c.buf.length < 12) : RunningStep c false c
  | outside (message : String) (hdue : rectDue c = true) (hin : c.inRect = false) :
      RunningStep c false ((entered c).failed message)
  | partly {c₁ c' : VncClient E} (hdue : rectDue c = true) (hrect : pendingRect c = some c₁)
      (hwait : decodeRect c₁.encoding c₁ = .ok (false, c')) (hdec : Decoded c₁.rect c₁ c') : RunningStep c false c'
  | complete {c₁ c₂ : VncClient E} (hdue : rectDue c = true) (hrect : pendingRect c = some c₁)
      (hno : c₁.encoding ≠ encDesktopSize) (hdone : decodeRect c₁.encoding c₁ = .ok (true, c₂)) (hdec : Decoded c₁.rect c₁ c₂)
      (hlive : Live c₂) (hcov : c₁.encoding ≠ encLastRect → Covered c₁.rect c₂)
      (hfinish : lastOfUpdate c₂ = true → finishUpdate (counted c₂) = .ok ((), rectFinished c₂)) :
      RunningStep c true (rectFinished c₂)
  | resize {c₁ : VncClient E} (hdue : rectDue c = true) (hrect : pendingRect c = some c₁)
      (hsize : c₁.encoding = encDesktopSize) (hallowed : sizeAllowed c₁.rect) (hlive : Live (desktopSized c₁))
      (hdone : decodeRect c₁.encoding c₁ = .ok (true, desktopSized c₁))
      (hfinish : lastOfUpdate c₁ = true → finishUpdate (counted (desktopSized c₁)) = .ok ((), rectFinished (desktopSized c₁))) :
      RunningStep c true (rectFinished (desktopSized c₁))

theorem framebufferUpdate_cases {done : Bool} (hdue : rectDue c = false) (htype : c.buf.head? = some 0)
    (h : framebufferUpdate c = .ok (done, c')) : RunningStep c done c' := by
  unfold framebufferUpdate need avail at h
  rw [bind_of_ok (gets_apply _ _)] at h
  split at h
  · cases h
    simpa using RunningStep.message false c.buf [] ⟨hdue, by omega⟩ .none
  · rename_i hlen
    rw [bind_of_ok (u16_apply (by omega)), bind_of_ok (modify_apply _ _)] at h
    obtain ⟨⟨⟩, c₁, h₁, h⟩ := bind_eq_ok h
    unfold consume at h₁
    rw [if_pos (by simp only; omega)] at h₁
    cases h₁
    have hheader : Header (be16 c.buf 2) c := ⟨hdue, htype, by omega, rfl⟩
    have hannounced := RunningStep.update (be16 c.buf 2) hheader
    have hempty := RunningStep.emptyUpdate (c := c)
    by_cases hz : be16 c.buf 2 = 0
    · rw [if_pos hz] at h
      obtain ⟨⟨⟩, c₂, h₂, h⟩ := bind_eq_ok h
      cases h
      rw [hz] at h₂ hheader
      obtain rfl := finishUpdate_ok h₂
      exact hempty hheader h₂
    · rw [if_neg hz] at h
      cases h
      exact hannounced hz

theorem RunningStep.silent (hother : NoUpdate c) (done : Bool) (buf : List UInt8) :
    RunningStep c done { c with buf := buf } := by
  have hstep := RunningStep.message done buf [] hother .none
  rwa [List.append_nil] at hstep

theorem wp_refused {message : String} (hother : NoUpdate c) (hf : c.failedAlready = false) :
    wp AnyFault (failStep message) (RunningStep c) c :=
  wp_failStep hf (.refused message hother)

theorem setColourMapEntries_cases (hother : NoUpdate c) : wp AnyFault setColourMapEntries (RunningStep c) c := by
  unfold setColourMapEntries
  refine wp_need (.silent hother _ _) fun _ => ?_
  simp only [wp_bind]
  refine Inbox.ReadOnly.wp (readOnly_u16 _) fun colours => wp_int32 (fun _ => trivial) fun _ => ?_
  refine wp_need (.silent hother _ _) fun _ => ?_
  simp only [wp_bind, wp_pure]
  exact any_consume (.silent hother _ _)

theorem serverBell_cases (hother : NoUpdate c) : wp AnyFault serverBell (RunningStep c) c := by
  unfold serverBell emit
  simp only [wp_bind, wp_modify, wp_pure]
  exact any_consume (.message _ _ _ hother .bell)

theorem serverCutText_cases (hother : NoUpdate c) (hf : c.failedAlready = false) :
    wp AnyFault serverCutText (RunningStep c) c := by
  unfold serverCutText emit
  refine wp_need (.silent hother _ _) fun _ => ?_
  simp only [wp_bind]
  refine Inbox.ReadOnly.wp (readOnly_u32 _) fun length => wp_ite (fun _ => wp_refused hother hf) (fun _ => ?_)
  refine wp_need (.silent hother _ _) fun hlen => ?_
  simp only [wp_bind, wp_modify, wp_pure]
  exact wp_bytes hlen fun text _ => any_consume (.message _ _ _ hother (.clipboard text))

theorem serverMessage_cases (hdue : rectDue c = false) (hf : c.failedAlready = false) :
    wp AnyFault serverMessage (RunningStep c) c := by
  unfold serverMessage need avail
  simp only [wp_bind, wp_gets]
  refine wp_ite (fun hshort => .silent ⟨hdue, by omega⟩ _ _) (fun hlen => ?_)
  simp only [wp_bind]
  refine wp_u8 (by omega) fun type htype => ?_
  have hhead : c.buf.head? = some type := by
    rw [← htype]
    cases c.buf <;> rfl
  refine wp_ite (fun h0 => ?_) (fun h0 => ?_)
  · subst h0
    unfold wp
    cases hs : framebufferUpdate c with
    | error f => trivial
    | ok p => exact framebufferUpdate_cases hdue hhead hs
  · have hother : NoUpdate c := by
      refine ⟨hdue, fun h => h0 ?_⟩
      rw [hhead] at h
      exact Option.some.inj h.1
    refine wp_ite (fun _ => setColourMapEntries_cases hother) (fun _ => wp_ite (fun _ => serverBell_cases hother) (fun _ => ?_))
    exact wp_ite (fun _ => serverCutText_cases hother hf) (fun _ => wp_refused hother hf)

/-! ### Rectangles -/

theorem pendingRect_cases {c₁ : VncClient E} (hrect : pendingRect c = some c₁) :
    (c.inRect = true ∧ c₁ = c) ∨ (c.inRect = false ∧ c₁ = entered c) := by
  unfold pendingRect at hrect
  by_cases hin : c.inRect = true
  · rw [if_pos hin] at hrect
    cases hrect
    exact .inl ⟨hin, rfl⟩
  · rw [if_neg hin] at hrect
    split at hrect
    · cases hrect
      exact .inr ⟨by simpa using hin, rfl⟩
    · cases hrect

theorem continueRect_cases {c₁ : VncClient E} (hdue : rectDue c = true) (hrect : pendingRect c = some c₁) (hl : Live c₁)
    (hok : RectOk c₁) : wp AnyFault continueRect (RunningStep c) c₁ := by
  unfold continueRect
  simp only [wp_bind, wp_gets]
  unfold wp
  cases hs : decodeRect c₁.encoding c₁ with
  | error f => trivial
  | ok p =>
    obtain ⟨done, c₂⟩ := p
    have hafter := wp_ok (decodeRect_after (F := AnyFault) hl hok (.inr trivial) trivial trivial fun _ _ _ => trivial) hs
    have hfinish (hstep : (lastOfUpdate c₂ = true → finishUpdate (counted c₂) = .ok ((), rectFinished c₂)) →
        RunningStep c true (rectFinished c₂)) : wp AnyFault finishRect (RunningStep c) c₂ := by
      unfold wp
      cases hf : finishRect c₂ with
      | error f => trivial
      | ok q =>
        obtain ⟨completed, c₃⟩ := q
        obtain ⟨rfl, rfl, hend⟩ := finishRect_cases hf
        exact hstep hend
    by_cases hsize : c₁.encoding = encDesktopSize
    · have hdesk : decodeRect c₁.encoding c₁ = decodeDesktopSize c₁ := by
        rw [hsize]
        rfl
      rw [hdesk] at hs
      rcases decodeDesktopSize_ok hl.failed hs with ⟨rfl, message, rfl⟩ | ⟨rfl, hallowed, rfl⟩
      · refine .partly hdue hrect (hdesk.trans hs) ?_
        exact ⟨rfl, rfl, rfl, rfl, rfl, rfl, rfl, rfl, rfl, rfl, rfl, fun _ _ _ => rfl, fun _ _ h => h,
          .failed message hl.failed rfl rfl rfl rfl⟩
      · exact hfinish fun hend => .resize hdue hrect hsize hallowed (hafter.live rfl) (hdesk.trans hs) hend
    · have hdec := decodeRect_decodes (r := c₁.rect) hsize _ _ _ hs rfl
      cases done with
      | false => exact .partly hdue hrect hs hdec
      | true =>
        refine hfinish fun hend => .complete hdue hrect hsize hs hdec (hafter.live rfl) (fun hlast => ?_) hend
        exact covers_decodeRect hsize hlast _ _ rfl hs

theorem stepRect_cases (h : Inv c) (hs : c.stage = .running) (hdue : rectDue c = true) :
    wp AnyFault stepRect (RunningStep c) c := by
  have hl := Live.of_inv h hs
  unfold stepRect
  simp only [wp_bind, wp_gets]
  refine wp_ite (fun hin => ?_) (fun hin => ?_)
  · have hrect : pendingRect c = some c := by rw [pendingRect, if_pos hin]
    exact continueRect_cases hdue hrect hl (h.rect hs hin)
  · have hin : c.inRect = false := by simpa using hin
    unfold need avail
    simp only [wp_bind, wp_gets]
    refine wp_ite (fun hshort => .noHeader hdue hin hshort) (fun hlen => ?_)
    have hleft : 0 < c.rectsLeft := by simpa [rectDue, hin] using hdue
    have hrect : pendingRect c = some (entered c) := by
      rw [pendingRect, hin, if_neg (by decide), if_pos ⟨hleft, by omega⟩]
    simp only [wp_bind]
    refine wp_enterRect hl (by omega) (fun message => .outside message hdue hin) fun hok => ?_
    exact continueRect_cases hdue hrect (hl.of_eq rfl rfl rfl rfl rfl) hok

/-- What a step of a running client may do. -/
theorem stepRunning_cases {done : Bool} (h : Inv c) (hs : c.stage = .running)
    (hstep : step c = .ok (done, c')) : RunningStep c done c' := by
  have hwp : wp AnyFault step (RunningStep c) c := by
    have hl := Live.of_inv h hs
    unfold step
    simp only [wp_bind, wp_gets, hs]
    unfold stepOf stepRunning
    simp only [wp_bind, wp_gets]
    refine wp_ite (fun hdue => ?_) (fun hdue => ?_)
    · exact stepRect_cases h hs (decide_eq_true hdue)
    · exact serverMessage_cases (decide_eq_false hdue) hl.failed
  have hcases := wp_ok hwp hstep
  exact hcases

end Steps

end LvdTerm.Vnc
