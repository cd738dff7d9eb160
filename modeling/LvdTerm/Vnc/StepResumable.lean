import LvdTerm.Vnc.TightResumable

/-!
# VNC client: a step can be resumed

`decodeRect`, the rectangle around it, the server messages and the stage machine. A step
that has to wait is still the same kind of step when it is tried again (`decodeRect_waits`
and its successors), and then goes on as it would have with all its data at once.
-/
namespace LvdTerm.Vnc

open Lib Lib.Inbox

variable {E : Env}

abbrev ResumesM (m : ClientM E Bool) : Prop := (inbox E).Resumes ReadAhead m

/-! ## Rectangles -/

theorem atomic_waits {m : ClientM E Bool} (hm : AtomicM m) {c c' : VncClient E} (h : m c = .ok (false, c'))
    (hh : (inbox E).halted c' = false) : SameRect c c' := by
  rw [hm.unchanged h hh]
  exact .refl c

/-- A unit that waits in front of something that never does. -/
theorem andThen_waits {m f : ClientM E Bool} {c c' : VncClient E}
    (htrue : ∀ {c b c'}, f c = .ok (b, c') → b = true)
    (h : (m >>= fun done => if done then f else pure false) c = .ok (false, c')) : m c = .ok (false, c') := by
  obtain ⟨done, c₁, h₁, h₂⟩ := Action.bind_eq_ok h
  cases done with
  | false => cases h₂; exact h₁
  | true => cases htrue h₂

/-- `addDirty(m_rect); rectDone = true;` -/
theorem thenDirty_eq (decode : ClientM E Bool) : thenDirty decode =
    (decode >>= fun done => if done then (do
      let rect ← Action.gets fun c => c.rect
      addDirty rect
      pure true) else pure false) := rfl

theorem thenDirty_resumes {decode : ClientM E Bool} (hm : ResumesM decode) : ResumesM (thenDirty decode) := by
  refine hm.andThen ((stable_field _ fun _ _ => rfl).bind fun _ => (stable_addDirty _).bind fun _ => stable_pure _) ?_
  intro c b c' h
  cases h
  rfl

theorem thenDirty_waits {decode : ClientM E Bool} {c c' : VncClient E} (h : thenDirty decode c = .ok (false, c')) :
    decode c = .ok (false, c') :=
  andThen_waits (fun h => by cases h; rfl) h

theorem decodeRect_resumes (encoding : Int) : ResumesM (decodeRect encoding : ClientM E Bool) :=
  resumes_ite decodeRaw_atomic.resumes <| resumes_ite decodeCopyRect_atomic.resumes <|
    resumes_ite (thenDirty_resumes decodeHextile_resumes) <| resumes_ite (thenDirty_resumes stepTight_resumes) <|
    resumes_ite stepZrle_atomic.resumes <| resumes_ite decides_true.atomic.resumes <|
    resumes_ite decodeDesktopSize_atomic.resumes (atomic_failStep _).resumes

/-- A rectangle that waits is still the same rectangle. -/
theorem decodeRect_waits {encoding : Int} {c c' : VncClient E} (h : decodeRect encoding c = .ok (false, c'))
    (hh : (inbox E).halted c' = false) : SameRect c c' := by
  unfold decodeRect at h
  split at h
  · exact atomic_waits decodeRaw_atomic h hh
  split at h
  · exact atomic_waits decodeCopyRect_atomic h hh
  split at h
  · exact decodeHextile_waits (thenDirty_waits h) hh
  split at h
  · exact stepTight_waits (thenDirty_waits h) hh
  split at h
  · exact atomic_waits stepZrle_atomic h hh
  split at h
  · cases h
  split at h
  · exact atomic_waits decodeDesktopSize_atomic h hh
  · exact atomic_waits (atomic_failStep _) h hh

theorem stable_showPixel (x y : Nat) : StableM (showPixel x y : ClientM E Unit) :=
  stable_check (p := fun c : VncClient E =>
    x < c.work.width ∧ y < c.work.height ∧ x < c.fb.width ∧ y < c.fb.height) (fun _ _ => Iff.rfl) fun _ _ => rfl

theorem stable_showRect (r : Rect) : StableM (showRect r : ClientM E Unit) :=
  stable_forRange (fun _ => stable_forRange (fun _ => stable_showPixel _ _) _) _

theorem stable_finishUpdate : StableM (finishUpdate : ClientM E Unit) := by
  refine (stable_modify fun _ _ => rfl).bind fun _ => ?_
  refine (stable_field _ fun _ _ => rfl).bind fun all => (stable_field _ fun _ _ => rfl).bind fun work => ?_
  refine (stable_field _ fun _ _ => rfl).bind fun resized => (stable_modify fun _ _ => rfl).bind fun _ => ?_
  have hrest : StableM (do
      requestUpdate (!resized)
      Action.modify fun c => { c with resized := false } : ClientM E Unit) :=
    (stable_requestUpdate _).bind fun _ => stable_modify fun _ _ => rfl
  refine stable_ite ?_ ((stable_pure ()).bind fun _ => hrest)
  exact (stable_showRect _).bind fun _ => (stable_emit _).bind fun _ => hrest

theorem stable_finishRect : StableM (finishRect : ClientM E Bool) := by
  refine (stable_modify fun _ _ => rfl).bind fun _ => (stable_field _ fun _ _ => rfl).bind fun lastRectMode => ?_
  refine (stable_field _ fun _ _ => rfl).bind fun encoding => (stable_field _ fun _ _ => rfl).bind fun left => ?_
  have hdone : ∀ m : ClientM E Unit, StableM m → StableM (do m; pure true) := fun _ hm =>
    hm.bind fun _ => stable_pure true
  refine stable_ite (stable_ite ?_ (hdone _ (stable_pure ()))) ((stable_modify fun _ _ => rfl).bind fun _ => ?_)
  · exact (stable_modify fun _ _ => rfl).bind fun _ => hdone _ stable_finishUpdate
  · exact stable_ite (hdone _ stable_finishUpdate) (hdone _ (stable_pure ()))

theorem finishRect_true {c c' : VncClient E} {b : Bool} (h : finishRect c = .ok (b, c')) : b = true := by
  have hwp : Action.wp AnyFault finishRect (fun b _ => b = true) c := by
    unfold finishRect
    simp only [Action.wp_bind, Action.wp_modify, Action.wp_gets]
    refine Action.wp_ite (fun _ => Action.wp_ite (fun _ => ?_) (fun _ => rfl)) (fun _ => ?_)
    · simp only [Action.wp_bind, Action.wp_modify]
      exact Action.wp_any fun _ _ => rfl
    · simp only [Action.wp_bind, Action.wp_modify]
      refine Action.wp_ite (fun _ => ?_) (fun _ => rfl)
      rw [Action.wp_bind]
      exact Action.wp_any fun _ _ => rfl
  have hb := Action.wp_ok hwp h
  exact hb

theorem continueRect_waits {c c' : VncClient E} (h : continueRect c = .ok (false, c'))
    (hh : (inbox E).halted c' = false) : SameRect c c' :=
  @decodeRect_waits E c.encoding c c' (andThen_waits finishRect_true h) hh

theorem continueRect_resumes : ResumesM (continueRect : ClientM E Bool) := by
  refine Resumes.after (stable_field _ fun _ _ => rfl) (readOnly_gets _) (fun encoding =>
    (decodeRect_resumes encoding).andThen stable_finishRect finishRect_true) ?_
  intro c encoding c' hgets hw hh
  cases hgets
  have hs := decodeRect_waits (andThen_waits finishRect_true hw) hh
  rw [Action.gets_apply, hs.encoding]

theorem decides_enterRect : DecidesM (enterRect : ClientM E Bool) := by
  refine (stable_u16 _).decides fun _ => (stable_u16 _).decides fun _ => (stable_u16 _).decides fun _ => ?_
  refine (stable_u16 _).decides fun _ => (stable_u32 _).decides fun _ => (stable_consume _).decides fun _ => ?_
  refine (stable_modify fun _ _ => rfl).decides fun _ => (stable_field _ fun _ _ => rfl).decides fun _ => ?_
  exact decides_ite (decides_failStep _) decides_true

theorem enterRect_done {c c' : VncClient E} (h : enterRect c = .ok (true, c')) :
    c'.inRect = true ∧ (inbox E).halted c' = (inbox E).halted c ∧ c'.stage = c.stage := by
  have hwp : Action.wp AnyFault enterRect (fun ok c' => ok = true →
      c'.inRect = true ∧ (inbox E).halted c' = (inbox E).halted c ∧ c'.stage = c.stage) c := by
    unfold enterRect
    simp only [Action.wp_bind]
    refine ReadOnly.wp (readOnly_u16 _) fun x => ReadOnly.wp (readOnly_u16 _) fun y => ?_
    refine ReadOnly.wp (readOnly_u16 _) fun w => ReadOnly.wp (readOnly_u16 _) fun h => ?_
    refine ReadOnly.wp (readOnly_u32 _) fun encoding => any_consume ?_
    simp only [Action.wp_modify, Action.wp_gets]
    refine Action.wp_ite (fun _ => ?_) (fun _ => fun _ => ⟨rfl, rfl, rfl⟩)
    unfold failStep
    rw [Action.wp_bind]
    exact Action.wp_any fun _ _ => fun hno => by cases hno
  exact Action.wp_ok hwp h rfl

theorem stepRect_resumes : ResumesM (stepRect : ClientM E Bool) :=
  @Resumes.enter _ _ _ (inbox E) _ (fun c => c.inRect) _ _ 12 (fun _ _ => rfl) decides_enterRect
    (fun h => ⟨(enterRect_done h).1, (enterRect_done h).2.1⟩) continueRect_resumes
    fun hin hw hh => (continueRect_waits hw hh).inRect.trans hin

/-- Waiting in front of a rectangle changes nothing, waiting inside keeps the client there. -/
theorem stepRect_waits {c c' : VncClient E} (h : stepRect c = .ok (false, c'))
    (hh : (inbox E).halted c' = false) : c'.stage = c.stage ∧ (c' = c ∨ c'.inRect = true) := by
  unfold stepRect at h
  rw [Action.bind_of_ok (Action.gets_apply _ _)] at h
  split at h
  · rename_i hin
    have hs := continueRect_waits h hh
    exact ⟨hs.stage, .inr (hs.inRect.trans hin)⟩
  · unfold need avail at h
    rw [Action.bind_of_ok (Action.gets_apply _ _)] at h
    split at h
    · cases h
      exact ⟨rfl, .inl rfl⟩
    · obtain ⟨ok, c₁, h₁, h₂⟩ := Action.bind_eq_ok h
      cases ok with
      | false =>
        cases h₂
        rw [decides_enterRect.final h₁] at hh
        cases hh
      | true =>
        obtain ⟨hin, _, hstage⟩ := enterRect_done h₁
        have hs := continueRect_waits h₂ hh
        exact ⟨hs.stage.trans hstage, .inr (hs.inRect.trans hin)⟩

/-! ## Messages -/

theorem framebufferUpdate_atomic : AtomicM (framebufferUpdate : ClientM E Bool) := by
  refine atomic_need 4 (Decides.atomic ((stable_u16 _).decides fun count => ?_))
  refine (stable_modify fun _ _ => rfl).decides fun _ => (stable_consume _).decides fun _ => ?_
  exact decides_ite (stable_finishUpdate.decides fun _ => decides_true) decides_true

theorem setColourMapEntries_atomic : AtomicM (setColourMapEntries : ClientM E Bool) := by
  refine atomic_need 6 (Atomic.after (stable_u16 _) (readOnly_u16 _) fun colours => ?_)
  refine Atomic.after (stable_int32 _) (readOnly_int32 _) fun total => atomic_need _ (Decides.atomic ?_)
  exact (stable_consume _).decides fun _ => decides_true

theorem serverBell_atomic : AtomicM (serverBell : ClientM E Bool) :=
  Decides.atomic ((stable_consume _).decides fun _ => (stable_emit _).decides fun _ => decides_true)

theorem serverCutText_atomic : AtomicM (serverCutText : ClientM E Bool) := by
  refine atomic_need 8 (Atomic.after (stable_u32 _) (readOnly_u32 _) fun length => ?_)
  refine atomic_ite (atomic_failStep _) (atomic_need _ (Decides.atomic ((stable_bytes _ _).decides fun _ => ?_)))
  exact (stable_consume _).decides fun _ => (stable_emit _).decides fun _ => decides_true

theorem serverMessage_atomic : AtomicM (serverMessage : ClientM E Bool) := by
  refine atomic_need 1 (Atomic.after (stable_u8 _) (readOnly_u8 _) fun type => ?_)
  exact atomic_ite framebufferUpdate_atomic <| atomic_ite setColourMapEntries_atomic <|
    atomic_ite serverBell_atomic <| atomic_ite serverCutText_atomic (atomic_failStep _)

/-- A rectangle is due, or being decoded. -/
def rectDue (c : VncClient E) : Bool := c.inRect = true ∨ c.rectsLeft > 0

theorem stepRunning_eq :
    stepRunning = (Action.gets rectDue >>= fun due => if due then stepRect else serverMessage : ClientM E Bool) := by
  funext c
  rw [Action.bind_of_ok (Action.gets_apply _ _)]
  by_cases hdue : c.inRect = true ∨ c.rectsLeft > 0
  · have hb : rectDue c = true := decide_eq_true hdue
    rw [hb, if_pos rfl]
    exact congrFun (if_pos hdue) c
  · have hb : rectDue c = false := decide_eq_false hdue
    rw [hb, if_neg (by decide)]
    exact congrFun (if_neg hdue) c

/-- While it waits the client stays in its stage, and a rectangle stays due. -/
theorem runningBody_waits {due : Bool} {c c' : VncClient E} (hdue : rectDue c = due)
    (h : (if due then stepRect else serverMessage : ClientM E Bool) c = .ok (false, c'))
    (hh : (inbox E).halted c' = false) : c'.stage = c.stage ∧ rectDue c' = due := by
  cases due with
  | false =>
    cases serverMessage_atomic.unchanged h hh
    exact ⟨rfl, hdue⟩
  | true =>
    obtain ⟨hstage, rfl | hin⟩ := stepRect_waits h hh
    · exact ⟨rfl, hdue⟩
    · exact ⟨hstage, decide_eq_true (.inl hin)⟩

theorem stepRunning_resumes : ResumesM (stepRunning : ClientM E Bool) := by
  rw [stepRunning_eq]
  refine Resumes.after (stable_field _ fun _ _ => rfl) (readOnly_gets _)
    (fun due => resumes_ite stepRect_resumes serverMessage_atomic.resumes) ?_
  intro c due c' hgets hw hh
  cases hgets
  rw [Action.gets_apply, (runningBody_waits rfl hw hh).2]

theorem stepRunning_waits {c c' : VncClient E} (h : stepRunning c = .ok (false, c'))
    (hh : (inbox E).halted c' = false) : c'.stage = c.stage := by
  rw [stepRunning_eq, Action.bind_of_ok (Action.gets_apply _ _)] at h
  exact (runningBody_waits rfl h hh).1

/-! ## The stage machine -/

theorem stepSecurityTypes_atomic : AtomicM (stepSecurityTypes : ClientM E Bool) :=
  Atomic.after (stable_field _ fun _ _ => rfl) (readOnly_gets _) fun _ =>
    atomic_ite stepSecurityType_atomic stepSecurityList_atomic

theorem stepOf_resumes (stage : Stage) : ResumesM (stepOf stage : ClientM E Bool) := by
  cases stage with
  | idle => exact atomic_wait.resumes
  | version => exact stepVersion_atomic.resumes
  | securityTypes => exact stepSecurityTypes_atomic.resumes
  | authChallenge => exact stepAuthChallenge_atomic.resumes
  | securityResult => exact stepSecurityResult_atomic.resumes
  | securityReason => exact stepSecurityReason_atomic.resumes
  | serverInit => exact stepServerInit_atomic.resumes
  | running => exact stepRunning_resumes

theorem stepOf_waits {stage : Stage} {c c' : VncClient E} (h : stepOf stage c = .ok (false, c'))
    (hh : (inbox E).halted c' = false) : c'.stage = c.stage := by
  cases stage with
  | idle => cases h; rfl
  | version => exact congrArg _ (stepVersion_atomic.unchanged h hh)
  | securityTypes => exact congrArg _ (stepSecurityTypes_atomic.unchanged h hh)
  | authChallenge => exact congrArg _ (stepAuthChallenge_atomic.unchanged h hh)
  | securityResult => exact congrArg _ (stepSecurityResult_atomic.unchanged h hh)
  | securityReason => exact congrArg _ (stepSecurityReason_atomic.unchanged h hh)
  | serverInit => exact congrArg _ (stepServerInit_atomic.unchanged h hh)
  | running => exact stepRunning_waits h hh

/-- A step that returns `false` is tried again when more data has arrived. -/
theorem step_resumes : ResumesM (step : ClientM E Bool) := by
  refine Resumes.after (stable_field _ fun _ _ => rfl) (readOnly_gets _) stepOf_resumes ?_
  intro c stage c' hgets hw hh
  cases hgets
  rw [Action.gets_apply, stepOf_waits hw hh]

end LvdTerm.Vnc
