import LvdTerm.Vnc.Resumable

/-!
# VNC client: rectangles can be resumed

The decoders of a rectangle, the messages and `step` itself. What a waiting rectangle leaves
behind (reset streams, finished Hextile tiles, a header that has been used up) is found
again by the next attempt, which then goes on as the first would have.
-/
namespace LvdTerm.Vnc

open Lib Lib.Inbox

variable {E : Env}

/-! ## Raw, CopyRect and DesktopSize -/

theorem decodeRaw_atomic : AtomicM (decodeRaw : ClientM E Bool) := by
  refine Atomic.after (stable_field _ fun _ _ => rfl) (readOnly_gets _) fun rect => ?_
  refine atomic_need _ (Decides.atomic (Stable.decides ?_ fun _ => ?_))
  · refine stable_forRange (fun row => (stable_int32 _).bind fun base => ?_) _
    exact stable_forRange (fun col => (stable_pixelAt _).bind fun _ => stable_setPixel _ _ _) _
  · exact (stable_addDirty _).decides fun _ => (stable_consume _).decides fun _ => decides_true

theorem stable_pasteRows (x y : Nat) (copy : Image) : StableM (pasteRows x y copy : ClientM E Unit) :=
  stable_forRange (fun _ => stable_forRange (fun _ => stable_setPixel _ _ _) _) _

theorem decodeCopyRect_atomic : AtomicM (decodeCopyRect : ClientM E Bool) := by
  refine atomic_need 4 (Decides.atomic ?_)
  refine (stable_u16 _).decides fun _ => (stable_u16 _).decides fun _ => ?_
  refine (stable_field _ fun _ _ => rfl).decides fun _ => (stable_field _ fun _ _ => rfl).decides fun _ => ?_
  refine (stable_consume _).decides fun _ => decides_ite (decides_failStep _) ?_
  exact (stable_pasteRows _ _ _).decides fun _ => (stable_addDirty _).decides fun _ => decides_true

theorem decodeDesktopSize_atomic : AtomicM (decodeDesktopSize : ClientM E Bool) := by
  refine Decides.atomic ((stable_field _ fun _ _ => rfl).decides fun _ => ?_)
  refine decides_ite (decides_failStep _) ((stable_modify fun _ _ => rfl).decides fun _ => ?_)
  refine (stable_addDirty _).decides fun _ => (stable_emit _).decides fun _ => ?_
  exact (stable_modify fun _ _ => rfl).decides fun _ => decides_true

/-! ## ZRLE -/

theorem stable_zrleState : StableM (zrleState : ClientM E (Option (InflateState E))) := by
  refine (stable_field _ fun _ _ => rfl).bind fun stream => ?_
  cases stream with
  | some s => exact stable_pure _
  | none =>
    cases (InflateState.mk none : InflateState E).reset with
    | none => exact (stable_modify fun _ _ => rfl).bind fun _ => stable_pure _
    | some s => exact (stable_modify fun _ _ => rfl).bind fun _ => stable_pure _

theorem stable_drawWrites (ws : List Write) : StableM (drawWrites ws : ClientM E Unit) := by
  induction ws with
  | nil => exact stable_pure ()
  | cons w ws ih =>
    refine Stable.bind ?_ fun _ => ih
    unfold drawWrite
    cases w.color with
    | none => exact stable_throw _
    | some color => exact stable_setPixel _ _ _

theorem decides_zrleRect (payload : List UInt8) : DecidesM (zrleRect payload : ClientM E Bool) := by
  refine (stable_field _ fun _ _ => rfl).decides fun rect => (stable_drawWrites _).decides fun _ => ?_
  cases (zrleDecode (zrleTiles rect) payload).finish with
  | ok rest => exact (stable_addDirty _).decides fun _ => decides_true
  | corrupt => exact decides_failStep _
  | fault f => exact ⟨stable_throw _, fun h => by cases h⟩

theorem stepZrle_atomic : AtomicM (stepZrle : ClientM E Bool) := by
  refine atomic_need 4 (Atomic.after (stable_u32 _) (readOnly_u32 _) fun length => ?_)
  refine atomic_ite (atomic_failStep _) (atomic_need _ (Decides.atomic ?_))
  refine stable_zrleState.decides fun state => ?_
  cases state with
  | none => exact decides_failStep _
  | some state =>
    refine (stable_bytes _ _).decides fun input => ?_
    cases state.zs with
    | none => exact decides_failStep _
    | some zs =>
      refine (stable_modify fun _ _ => rfl).decides fun _ => decides_ite (decides_failStep _) ?_
      exact (stable_consume _).decides fun _ => decides_zrleRect _

/-! ## Hextile -/

theorem stable_rawRows (x y w h pos : Nat) : StableM (rawRows x y w h pos : ClientM E Unit) :=
  stable_forRange (fun _ => stable_forRange (fun _ => (stable_pixelAt _).bind fun _ => stable_setPixel _ _ _) _) _

theorem stable_hextileSubrect (t : Rect) (fg : QRgb) (coloured : Bool) (pos : Option Nat) :
    StableM (hextileSubrect t fg coloured pos : ClientM E (Option Nat)) := by
  cases pos with
  | none => exact stable_pure none
  | some pos =>
    unfold hextileSubrect
    refine stable_ite ((stable_pixelAt _).bind fun colour => ?_) ((stable_pure _).bind fun colour => ?_) <;>
      refine (stable_u8 _).bind fun xy => (stable_u8 _).bind fun wh => stable_ite ?_ ?_
    all_goals first
      | exact (stable_fail _).bind fun _ => stable_pure _
      | exact (stable_fillRect _ _ _ _ _).bind fun _ => stable_pure _

theorem peek_hextileColour (specified : Bool) (pos : Nat) (old : QRgb) :
    PeekM (hextileColour specified pos old : ClientM E (Option (QRgb × Nat))) := by
  refine peek_ite (peek_peek _ ?_) ((stable_pure _).peek (readOnly_pure _))
  exact (stable_pixelAt _).peek_bind (readOnly_pixelAt _) fun _ => (stable_pure _).peek (readOnly_pure _)

theorem peek_hextileCount (specified : Bool) (pos : Nat) :
    PeekM (hextileCount specified pos : ClientM E (Option (Nat × Nat))) := by
  refine peek_ite (peek_peek _ ?_) ((stable_pure _).peek (readOnly_pure _))
  exact (stable_u8 _).peek_bind (readOnly_u8 _) fun _ => (stable_pure _).peek (readOnly_pure _)

/-- What decoding a tile leaves as it is. -/
structure SameTile (c c' : VncClient E) : Prop where
  rect : c'.rect = c.rect
  encoding : c'.encoding = c.encoding
  inRect : c'.inRect = c.inRect
  stage : c'.stage = c.stage
  failedAlready : c'.failedAlready = c.failedAlready
  tileX : c'.tileX = c.tileX
  tileY : c'.tileY = c.tileY

theorem SameTile.refl (c : VncClient E) : SameTile c c := ⟨rfl, rfl, rfl, rfl, rfl, rfl, rfl⟩

theorem SameTile.drop {c c' : VncClient E} (h : SameTile c c') (n : Nat) :
    SameTile c { c' with buf := c'.buf.drop n } :=
  ⟨h.rect, h.encoding, h.inRect, h.stage, h.failedAlready, h.tileX, h.tileY⟩

theorem SameTile.painted {c c₁ c' : VncClient E} (h : SameTile c c₁) (hp : Painted c₁ c') : SameTile c c' := by
  obtain ⟨pixel, rfl⟩ := hp
  exact ⟨h.rect, h.encoding, h.inRect, h.stage, h.failedAlready, h.tileX, h.tileY⟩

/-- Every fault is accepted: what follows is about results. -/
abbrev AnyFault : Fault → Prop := fun _ => True

theorem any_setPixel {c c' : VncClient E} {x y : Nat} {color : QRgb} (hp : Painted c c') :
    Action.wp AnyFault (setPixel x y color) (fun _ => Painted c) c' := by
  by_cases hin : x < c.work.width ∧ y < c.work.height
  · exact wp_setPixel hp hin.1 hin.2
  · unfold Action.wp setPixel
    rw [hp.width, hp.height, if_neg hin]
    trivial

theorem any_fillRect (c : VncClient E) {x y w h : Nat} {color : QRgb} :
    Action.wp AnyFault (fillRect x y w h color) (fun _ => Painted c) c :=
  wp_rows fun _ _ _ _ _ hp => any_setPixel hp

theorem any_rawRows (c : VncClient E) {x y w h pos : Nat} :
    Action.wp AnyFault (rawRows x y w h pos) (fun _ => Painted c) c := by
  refine wp_rows fun row col c' _ _ hp => ?_
  simp only [Action.wp_bind]
  exact ReadOnly.wp (readOnly_pixelAt _) fun color => any_setPixel hp

theorem any_consume {c : VncClient E} {n : Nat} {Q : Unit → VncClient E → Prop}
    (h : Q () { c with buf := c.buf.drop n }) : Action.wp AnyFault (consume n) Q c := by
  by_cases hn : n ≤ c.buf.length
  · exact wp_consume hn h
  · unfold Action.wp consume
    rw [if_neg hn]
    trivial

/-- A subrectangle is drawn, or the client fails. -/
def TileGoesOn (c : VncClient E) (pos : Option Nat) (c' : VncClient E) : Prop :=
  match pos with
  | none => (inbox E).halted c' = true
  | some _ => SameTile c c'

theorem hextileSubrect_goesOn {c c' : VncClient E} {t : Rect} {fg : QRgb} {coloured : Bool} {pos : Option Nat}
    (h : TileGoesOn c pos c') :
    Action.wp AnyFault (hextileSubrect t fg coloured pos) (TileGoesOn c) c' := by
  cases pos with
  | none => exact h
  | some pos =>
    have hfail : Action.wp AnyFault (fail "The server sent an invalid Hextile subrectangle")
        (fun _ c₁ => TileGoesOn c none c₁) c' := by
      unfold Action.wp
      cases hf : fail "The server sent an invalid Hextile subrectangle" c' with
      | error e => trivial
      | ok r => exact fail_halted hf
    unfold hextileSubrect
    refine Action.wp_ite (fun _ => ?_) (fun _ => ?_) <;> simp only [Action.wp_bind]
    · refine ReadOnly.wp (readOnly_pixelAt _) fun colour => ?_
      refine ReadOnly.wp (readOnly_u8 _) fun xy => ReadOnly.wp (readOnly_u8 _) fun wh => ?_
      refine Action.wp_ite (fun _ => ?_) (fun _ => ?_) <;> simp only [Action.wp_bind, Action.wp_pure]
      · exact hfail
      · exact Action.wp_mono (any_fillRect c') fun _ _ hp => h.painted hp
    · refine ReadOnly.wp (readOnly_u8 _) fun xy => ReadOnly.wp (readOnly_u8 _) fun wh => ?_
      refine Action.wp_ite (fun _ => ?_) (fun _ => ?_) <;> simp only [Action.wp_bind, Action.wp_pure]
      · exact hfail
      · exact Action.wp_mono (any_fillRect c') fun _ _ hp => h.painted hp

theorem hextileCommit_goesOn (c : VncClient E) {t : Rect} {bg fg : QRgb} {coloured : Bool} {subrects pos : Nat} :
    Action.wp AnyFault (hextileCommit t bg fg coloured subrects pos)
      (fun done c' => if done then SameTile c c' else (inbox E).halted c' = true) c := by
  have hstart : SameTile c { c with hexBg := bg, hexFg := fg } := ⟨rfl, rfl, rfl, rfl, rfl, rfl, rfl⟩
  unfold hextileCommit
  simp only [Action.wp_bind, Action.wp_modify]
  refine Action.wp_mono (any_fillRect _) fun _ c₁ hp => ?_
  have hloop : Action.wp AnyFault
      (Action.foldRange (fun _ => hextileSubrect t fg coloured) subrects (some pos)) (TileGoesOn c) c₁ :=
    Action.wp_foldRange (I := fun _ => TileGoesOn c) (fun _ _ _ _ h => hextileSubrect_goesOn h)
      (hstart.painted hp)
  refine Action.wp_mono hloop fun pos c₂ h => ?_
  cases pos with
  | none => exact h
  | some pos =>
    have hs : SameTile c c₂ := h
    simp only [Action.wp_bind, Action.wp_pure]
    exact any_consume (hs.drop _)

theorem decides_hextileCommit (t : Rect) (bg fg : QRgb) (coloured : Bool) (subrects pos : Nat) :
    DecidesM (hextileCommit t bg fg coloured subrects pos : ClientM E Bool) where
  stable := by
    refine (stable_modify fun _ _ => rfl).bind fun _ => (stable_fillRect _ _ _ _ _).bind fun _ => ?_
    refine (stable_foldRange (fun _ _ => stable_hextileSubrect _ _ _ _) _ _).bind fun pos => ?_
    cases pos with
    | none => exact stable_pure false
    | some pos => exact (stable_consume _).bind fun _ => stable_pure true
  final {c c'} h := by
    have hc := Action.wp_ok (hextileCommit_goesOn c) h
    exact hc

theorem stepHextileTile_atomic : AtomicM (stepHextileTile : ClientM E Bool) := by
  refine atomic_need 1 (Atomic.after (stable_field _ fun _ _ => rfl) (readOnly_gets _) fun t => ?_)
  refine Atomic.after (stable_u8 _) (readOnly_u8 _) fun sub => atomic_ite ?_ ?_
  · refine atomic_need _ (Decides.atomic ((stable_rawRows _ _ _ _ _).decides fun _ => ?_))
    exact (stable_consume _).decides fun _ => decides_true
  · refine Atomic.after (stable_field _ fun _ _ => rfl) (readOnly_gets _) fun bg => ?_
    refine Atomic.after (stable_field _ fun _ _ => rfl) (readOnly_gets _) fun fg => ?_
    refine (peek_hextileColour _ _ _).atomic rfl fun ⟨bg, pos⟩ => ?_
    refine (peek_hextileColour _ _ _).atomic rfl fun ⟨fg, pos⟩ => ?_
    refine (peek_hextileCount _ _).atomic rfl fun ⟨subrects, pos⟩ => ?_
    exact atomic_need _ (decides_hextileCommit _ _ _ _ _ _).atomic

theorem stepHextileTile_same (c : VncClient E) :
    Action.wp AnyFault stepHextileTile (fun done c' => done = true → SameTile c c') c := by
  have hno : false = true → SameTile c c := fun h => by cases h
  unfold stepHextileTile
  refine wp_need hno fun _ => ?_
  simp only [Action.wp_bind, Action.wp_gets]
  refine ReadOnly.wp (readOnly_u8 _) fun sub => Action.wp_ite (fun _ => ?_) (fun _ => ?_)
  · unfold hextileRaw
    refine wp_need hno fun _ => ?_
    simp only [Action.wp_bind, Action.wp_pure]
    refine Action.wp_mono (any_rawRows c) fun _ c₁ hp => ?_
    exact any_consume fun _ => ((SameTile.refl c).painted hp).drop _
  · simp only [Action.wp_bind, Action.wp_gets]
    refine ReadOnly.wp (peek_hextileColour _ _ _).readOnly fun background => ?_
    rcases background with _ | ⟨bg, pos⟩
    · exact hno
    simp only [Action.wp_bind]
    refine ReadOnly.wp (peek_hextileColour _ _ _).readOnly fun foreground => ?_
    rcases foreground with _ | ⟨fg, pos⟩
    · exact hno
    simp only [Action.wp_bind]
    refine ReadOnly.wp (peek_hextileCount _ _).readOnly fun count => ?_
    rcases count with _ | ⟨subrects, pos⟩
    · exact hno
    refine wp_need hno fun _ => Action.wp_mono (hextileCommit_goesOn c) fun done c' h hdone => ?_
    rwa [if_pos hdone] at h

/-- What decoding a rectangle leaves as it is, tile position apart. -/
structure SameRect (c c' : VncClient E) : Prop where
  encoding : c'.encoding = c.encoding
  inRect : c'.inRect = c.inRect
  stage : c'.stage = c.stage

theorem SameRect.refl (c : VncClient E) : SameRect c c := ⟨rfl, rfl, rfl⟩

theorem SameRect.trans {c₁ c₂ c₃ : VncClient E} (h : SameRect c₁ c₂) (h' : SameRect c₂ c₃) : SameRect c₁ c₃ :=
  ⟨h'.encoding.trans h.encoding, h'.inRect.trans h.inRect, h'.stage.trans h.stage⟩

theorem stable_nextHextile : StableM (nextHextile : ClientM E Unit) :=
  stable_modify fun x c => by
    by_cases hx : c.tileX + 16 ≥ c.rect.w <;> simp only [inbox, appendChunk, hx, if_true, if_false]

theorem nextHextile_cases {c c' : VncClient E} (h : nextHextile c = .ok ((), c')) :
    (c.tileX + 16 ≥ c.rect.w ∧ c' = { c with tileX := 0, tileY := c.tileY + 16 }) ∨
    (c.tileX + 16 < c.rect.w ∧ c' = { c with tileX := c.tileX + 16 }) := by
  unfold nextHextile at h
  simp only [Action.modify_apply, Except.ok.injEq, Prod.mk.injEq, true_and] at h
  split at h
  · exact .inl ⟨by assumption, h.symm⟩
  · exact .inr ⟨by omega, h.symm⟩

theorem nextHextile_same {c c' : VncClient E} (h : nextHextile c = .ok ((), c')) : SameRect c c' := by
  rcases nextHextile_cases h with ⟨_, rfl⟩ | ⟨_, rfl⟩ <;> exact ⟨rfl, rfl, rfl⟩

theorem stepHextileTile_done {c c' : VncClient E} (h : stepHextileTile c = .ok (true, c')) : SameTile c c' :=
  Action.wp_ok (stepHextileTile_same c) h rfl

/-- The next tile is in this row, or in a later one. -/
theorem hextile_rounds : (inbox E).Rounds (fun c => c.tileY < c.rect.h) stepHextileTile nextHextile hextilesLeft := by
  intro c c₁ c₂ hrow htile hnext
  have hs := stepHextileTile_done htile
  have hlt : c.tileY < c.rect.h := of_decide_eq_true hrow
  have hhalt : (inbox E).halted c₁ = (inbox E).halted c := by
    simp only [inbox, hs.stage, hs.failedAlready]
  have hleft : hextilesLeft c₁ = hextilesLeft c := by
    simp only [hextilesLeft, hs.rect, hs.tileX, hs.tileY]
  rw [← hleft, ← hhalt]
  rw [← hs.tileY, ← hs.rect] at hlt
  rcases nextHextile_cases hnext with ⟨hx, rfl⟩ | ⟨hx, rfl⟩
  · refine ⟨?_, rfl⟩
    obtain ⟨rows, hrows⟩ : ∃ rows, c₁.rect.h - c₁.tileY = rows + 1 := ⟨c₁.rect.h - c₁.tileY - 1, by omega⟩
    have hle : c₁.rect.h - (c₁.tileY + 16) ≤ rows := by omega
    have hmul := Nat.mul_le_mul_right (c₁.rect.w + 1) hle
    simp only [hextilesLeft, hrows, Nat.succ_mul]
    omega
  · refine ⟨?_, rfl⟩
    simp only [hextilesLeft]
    omega

theorem decodeHextile_resumes : (inbox E).Resumes ReadAhead (decodeHextile : ClientM E Bool) :=
  Resumes.loop (fun _ _ => rfl) stepHextileTile_atomic stable_nextHextile hextile_rounds fun _ _ => rfl

theorem decodeHextile_waits {c c' : VncClient E} (h : decodeHextile c = .ok (false, c'))
    (hh : (inbox E).halted c' = false) : SameRect c c' :=
  loopWhile_keeps SameRect.refl SameRect.trans stepHextileTile_atomic
    (fun h => have hs := stepHextileTile_done h; ⟨hs.encoding, hs.inRect, hs.stage⟩) nextHextile_same _ h hh

end LvdTerm.Vnc
