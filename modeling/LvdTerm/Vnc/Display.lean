import LvdTerm.Vnc.Moves

/-!
# VNC client: the displayed image follows the working image

`m_fb` and `m_work` are kept in step by one rectangle. Between two updates they may differ in
`m_dirty` and in the rectangle being decoded, and nowhere else; `finishUpdate` brings them together
and reports what it changed.
-/
namespace LvdTerm.Vnc

open Lib Lib.Action

variable {E : Env} {c c' mid : VncClient E}

/-- Pixel for pixel. -/
structure Image.Same (i j : Image) : Prop where
  width : i.width = j.width
  height : i.height = j.height
  pixel : ∀ x y, x < j.width → y < j.height → i.pixel x y = j.pixel x y

/-- A pixel of the rectangle being decoded; a LastRect has none. -/
def Decoding (c : VncClient E) (x y : Nat) : Prop := c.inRect = true ∧ c.encoding ≠ encLastRect ∧ c.rect.Mem x y

/-- The two images agree outside `m_dirty` and the rectangle being decoded. -/
structure Agree (c : VncClient E) : Prop where
  width : c.fb.width = c.work.width
  height : c.fb.height = c.work.height
  pixel : ∀ x y, x < c.work.width → y < c.work.height → ¬ c.dirty.Mem x y → ¬ Decoding c x y → c.fb.pixel x y = c.work.pixel x y

/-- In this step `finishUpdate` is called on `mid`. -/
inductive Finishing (c : VncClient E) : VncClient E → Prop where
  | empty (hheader : Header 0 c) : Finishing c (announced 0 c)
  | rect {c₁ c₂ : VncClient E} (hdue : rectDue c = true) (hrect : pendingRect c = some c₁)
      (hdone : decodeRect c₁.encoding c₁ = .ok (true, c₂)) (hlast : lastOfUpdate c₂ = true) : Finishing c (counted c₂)

/-- What `finishUpdate` leaves: equal images, and every changed pixel reported. -/
structure Shows (mid c' : VncClient E) : Prop where
  same : c'.fb.Same c'.work
  size : c'.fb.width = mid.fb.width ∧ c'.fb.height = mid.fb.height
  reported : ∀ x y, c'.fb.pixel x y ≠ mid.fb.pixel x y →
    ∃ dirty, .framebufferChanged dirty ∈ c'.events.drop mid.events.length ∧ dirty.Mem x y

/-- The display of a client that starts as `c₀`. -/
structure FollowsWork (c₀ : VncClient E) : Prop where
  between : ∀ marks c, Moves c₀ marks c → Agree c
  finishing : ∀ marks c done c', Moves c₀ marks c → c.stage ≠ .idle → c.buf.length < 2 ^ 31 → step c = .ok (done, c') →
    c.updates < c'.updates → ∃ mid, Finishing c mid ∧ finishUpdate mid = .ok ((), c') ∧ Agree mid ∧ Shows mid c'

/-! ## Agreement -/

theorem Agree.black {width height : Nat} (hfb : c.fb = .black width height) (hwork : c.work = .black width height) : Agree c := by
  refine ⟨?_, ?_, fun x y _ _ _ _ => ?_⟩
  all_goals rw [hfb, hwork]

/-- The images, what is dirty and what is being decoded are as before. -/
theorem Agree.of_eq (h : Agree c) (hfb : c'.fb = c.fb) (hwork : c'.work = c.work) (hdirty : c'.dirty = c.dirty)
    (hin : ∀ x y, Decoding c x y → Decoding c' x y) : Agree c' := by
  refine ⟨?_, ?_, fun x y hx hy hd hr => ?_⟩
  · rw [hfb, hwork]
    exact h.width
  · rw [hfb, hwork]
    exact h.height
  · rw [hwork] at hx hy
    rw [hdirty] at hd
    rw [hfb, hwork]
    exact h.pixel x y hx hy hd fun hdec => hr (hin x y hdec)

theorem Agree.behind (h : Agree c) (hcov : c.encoding ≠ encLastRect → Covered c.rect c) : Agree (counted c) := by
  obtain ⟨mode, left, heq⟩ := counted_eq c
  rw [heq]
  exact ⟨h.width, h.height, fun x y hx hy hd _ => h.pixel x y hx hy hd fun hdec => hd (hcov hdec.2.1 x y hdec.2.2)⟩

theorem counted_inRect (c : VncClient E) : (counted c).inRect = false := by
  obtain ⟨mode, left, heq⟩ := counted_eq c
  rw [heq]

theorem Agree.decoded (h : Agree c) (hin : c.inRect = true) (hl : c.encoding ≠ encLastRect) (hd : Decoded c.rect c c') : Agree c' := by
  refine ⟨?_, ?_, fun x y hx hy hdirty hdec => ?_⟩
  · rw [hd.fb, hd.width]
    exact h.width
  · rw [hd.fb, hd.height]
    exact h.height
  · rw [hd.width] at hx
    rw [hd.height] at hy
    -- outside the rectangle nothing has been drawn
    have hout : ¬ c.rect.Mem x y := fun hmem =>
      hdec ⟨hd.inRect.trans hin, by rw [hd.encoding]; exact hl, by rw [hd.rect]; exact hmem⟩
    rw [hd.fb, hd.outside x y hout]
    exact h.pixel x y hx hy (fun hm => hdirty (hd.dirty x y hm)) fun hdec' => hout hdec'.2.2

/-! ## `finishUpdate` -/

theorem Agree.shows (h : Agree mid) (hin : mid.inRect = false) : Shows mid (finished mid) := by
  have hshown : ∀ x y, (finished mid).fb.pixel x y ≠ mid.fb.pixel x y → (toShow mid).Mem x y := by
    intro x y hne
    by_contra hout
    exact hne (if_neg hout)
  refine ⟨⟨h.width, h.height, fun x y hx hy => ?_⟩, ⟨rfl, rfl⟩, fun x y hne => ⟨toShow mid, ?_, hshown x y hne⟩⟩
  · simp only [finished]
    split
    · rfl
    · rename_i hout
      refine h.pixel x y hx hy (fun hd => hout (Rect.mem_intersected.mpr ⟨hd, ?_⟩)) fun hdec => ?_
      · simp only [finished] at hx hy
        simp only [Rect.Mem, Image.rect]
        omega
      · rw [hdec.1] at hin
        cases hin
  · have hmem := hshown x y hne
    unfold Rect.Mem at hmem
    have hvalid : (toShow mid).isValid = true := decide_eq_true ⟨by omega, by omega⟩
    simp only [finished, if_pos hvalid, List.append_assoc, List.drop_left]
    exact List.mem_append_left _ List.mem_cons_self

theorem Shows.agree (h : Shows mid c') : Agree c' :=
  ⟨h.same.width, h.same.height, fun x y hx hy _ _ => h.same.pixel x y hx hy⟩

theorem Agree.finished (h : Agree mid) (hin : mid.inRect = false) : Agree (finished mid) := (h.shows hin).agree

theorem Agree.rectFinished (h : Agree (counted c)) : Agree (rectFinished c) := by
  unfold Vnc.rectFinished
  split
  · exact h.finished (counted_inRect c)
  · exact h

/-! ## Steps -/

theorem agree_desktopSized (c : VncClient E) : Agree (counted (desktopSized c)) := by
  obtain ⟨mode, left, heq⟩ := counted_eq (desktopSized c)
  rw [heq]
  exact .black rfl rfl

theorem Agree.pending {c₁ : VncClient E} (h : Agree c) (hrect : pendingRect c = some c₁) : Agree c₁ ∧ c₁.inRect = true := by
  rcases pendingRect_cases hrect with ⟨hin, rfl⟩ | ⟨hin, rfl⟩
  · exact ⟨h, hin⟩
  · exact ⟨h.of_eq rfl rfl rfl fun x y hdec => absurd hdec.1 (by rw [hin]; decide), rfl⟩

theorem Agree.complete {c₁ c₂ : VncClient E} (h : Agree c) (hrect : pendingRect c = some c₁)
    (hdone : decodeRect c₁.encoding c₁ = .ok (true, c₂)) (hdec : Decoded c₁.rect c₁ c₂)
    (hcov : c₁.encoding ≠ encLastRect → Covered c₁.rect c₂) : Agree (counted c₂) := by
  obtain ⟨h₁, hin⟩ := h.pending hrect
  by_cases hlast : c₁.encoding = encLastRect
  · rw [hlast, decodeRect_lastRect] at hdone
    cases hdone
    exact h₁.behind fun hno => absurd hlast hno
  · refine (h₁.decoded hin hlast hdec).behind fun _ => ?_
    rw [hdec.rect]
    exact hcov hlast

theorem Header.inRect {count : Nat} (h : Header count c) : c.inRect = false := by
  have hdue := of_decide_eq_false h.due
  simpa using fun hin => hdue (.inl hin)

theorem Agree.announced (h : Agree c) (count : Nat) : Agree (announced count c) := h.of_eq rfl rfl rfl fun _ _ hdec => hdec

theorem Agree.runningStep {done : Bool} (h : Agree c) (hstep : RunningStep c done c') : Agree c' := by
  cases hstep with
  | message _ buf events => exact h.of_eq rfl rfl rfl fun _ _ hdec => hdec
  | refused message => exact h.of_eq rfl rfl rfl fun _ _ hdec => hdec
  | update count hheader => exact h.announced count
  | emptyUpdate hheader => exact (h.announced 0).finished hheader.inRect
  | noHeader => exact h
  | outside message hdue hin =>
    exact h.of_eq rfl rfl rfl fun x y hdec => absurd hdec.1 (by rw [hin]; decide)
  | partly hdue hrect hwait hdec =>
    obtain ⟨h₁, hin⟩ := h.pending hrect
    refine h₁.decoded hin (fun hlast => ?_) hdec
    rw [hlast, decodeRect_lastRect] at hwait
    cases hwait
  | complete hdue hrect hno hdone hdec hlive hcov => exact (h.complete hrect hdone hdec hcov).rectFinished
  | resize => exact (agree_desktopSized _).rectFinished

theorem Agree.handshakeStep {done : Bool} (h : Agree c) (hin : c.inRect = false) (hstep : HandshakeStep c done c') : Agree c' := by
  have hno (c' : VncClient E) (x y : Nat) : Decoding c x y → Decoding c' x y := fun hdec => absurd hdec.1 (by rw [hin]; decide)
  cases hstep with
  | ready => exact .black rfl rfl
  | _ => exact h.of_eq rfl rfl rfl (hno _)

theorem Agree.effect {marks : List Mark} (hinv : Inv c) (h : Agree c) (heffect : Effect c marks c') : Agree c' := by
  cases heffect with
  | arrive chunk => exact h.of_eq rfl rfl rfl fun _ _ hdec => hdec
  | socket hs => cases hs <;> exact h.of_eq rfl rfl rfl fun _ _ hdec => hdec
  | handshake hs hstep => exact h.handshakeStep (hinv.early hs.2 hs.1) hstep
  | running hs hstep => exact h.runningStep hstep

/-! ## Updates -/

theorem HandshakeStep.updates {done : Bool} (h : HandshakeStep c done c') : c'.updates = c.updates := by
  cases h <;> rfl

theorem pendingRect_updates {c₁ : VncClient E} (hrect : pendingRect c = some c₁) : c₁.updates = c.updates := by
  rcases pendingRect_cases hrect with ⟨-, rfl⟩ | ⟨-, rfl⟩ <;> rfl

theorem counted_updates (c : VncClient E) : (counted c).updates = c.updates := by
  obtain ⟨mode, left, heq⟩ := counted_eq c
  rw [heq]

/-- Only the last rectangle of an update counts it. -/
theorem lastOfUpdate_of_updates (h : c.updates < (rectFinished c).updates) : lastOfUpdate c = true := by
  by_contra hno
  rw [rectFinished, if_neg hno, counted_updates] at h
  exact absurd h (Nat.lt_irrefl _)

/-- A step that counts an update has called `finishUpdate`. -/
theorem RunningStep.finishing {done : Bool} (h : RunningStep c done c') (hagree : Agree c) (hup : c.updates < c'.updates) :
    ∃ mid, Finishing c mid ∧ finishUpdate mid = .ok ((), c') ∧ Agree mid ∧ mid.inRect = false := by
  cases h with
  | message | refused | update | noHeader | outside => exact absurd hup (Nat.lt_irrefl _)
  | emptyUpdate hheader hfinish => exact ⟨_, .empty hheader, hfinish, hagree.announced 0, hheader.inRect⟩
  | partly hdue hrect hwait hdec =>
    rw [hdec.updates, pendingRect_updates hrect] at hup
    exact absurd hup (Nat.lt_irrefl _)
  | complete hdue hrect hno hdone hdec hlive hcov hfinish =>
    rw [← pendingRect_updates hrect, ← hdec.updates] at hup
    have hlast := lastOfUpdate_of_updates hup
    exact ⟨_, .rect hdue hrect hdone hlast, hfinish hlast, hagree.complete hrect hdone hdec hcov, counted_inRect _⟩
  | @resize c₁ hdue hrect hsize hallowed hlive hdone hfinish =>
    rw [← pendingRect_updates hrect] at hup
    have hlast := lastOfUpdate_of_updates (c := desktopSized c₁) hup
    exact ⟨_, .rect hdue hrect hdone hlast, hfinish hlast, agree_desktopSized c₁, counted_inRect _⟩

theorem moves_agree {provider : Option (Option String)} {encodings : List Int} {password : String} {marks : List Mark}
    (hm : Moves (.connecting E provider encodings password) marks c) : Agree c :=
  moves_keep (P := fun _ => Agree) (fun _ _ _ _ hinv h hm => h.effect hinv (hm.effect hinv))
    (inv_connecting E provider encodings password) ⟨rfl, rfl, fun _ _ _ _ _ _ => rfl⟩ hm

/-- After every update the screen shows `m_work`, and between two of them it differs from it only where
`m_dirty` and the rectangle being decoded say so. -/
theorem display_follows_work (E : Env) (provider : Option (Option String)) (encodings : List Int) (password : String) :
    FollowsWork (.connecting E provider encodings password) := by
  refine ⟨fun marks c hm => moves_agree hm, fun marks c done c' hm hidle hbuf hstep hup => ?_⟩
  have hinv := hm.inv (inv_connecting E provider encodings password)
  by_cases hrun : c.stage = .running
  · have hcases := stepRunning_cases hinv hrun hstep
    obtain ⟨mid, hmid, hfinish, hagree, hin⟩ := hcases.finishing (moves_agree hm) hup
    obtain rfl := finishUpdate_ok hfinish
    exact ⟨mid, hmid, hfinish, hagree, hagree.shows hin⟩
  · have hcases := step_handshake_cases hinv hidle hrun hstep
    rw [hcases.updates] at hup
    exact absurd hup (Nat.lt_irrefl _)

end LvdTerm.Vnc
