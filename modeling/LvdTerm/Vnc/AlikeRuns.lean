import LvdTerm.Vnc.Alike

/-!
# VNC client: alike from the first byte to the last

The running session and the socket's events, and from them whole runs: two clients that are alike
react to the same events in the same way.
-/
namespace LvdTerm.Vnc

open Lib Lib.Action

variable {E : Env} {old : List Event} {c c' : VncClient E}

/-! ## Decoding a rectangle -/

/-- Alike, with a desktop that is known to both. -/
structure AlikeShown (old : List Event) (c c' : VncClient E) : Prop where
  alike : Alike old c c'
  ready : .ready ∈ c'.events

/-- Alike in the middle of a rectangle. -/
structure AlikeDecoding (old : List Event) (c c' : VncClient E) : Prop where
  alike : Alike old c c'
  ready : .ready ∈ c'.events
  inRect : c'.inRect = true

theorem mem_failed {event : Event} {message : String} (h : event ∈ c.events) : event ∈ (c.failed message).events :=
  List.mem_append_left _ (List.mem_append_left _ h)

theorem AlikeShown.fails (h : AlikeShown old c c') (message : String) : Paired Excused (fail message) (fun _ => AlikeShown old) c c' :=
  paired_fail h.alike.failedAlready h ⟨h.alike.both_failed message, mem_failed h.ready⟩

theorem AlikeShown.work (h : AlikeShown old c c') : c.work = c'.work := congrArg Prod.fst (h.alike.screen h.ready)

theorem AlikeShown.fb (h : AlikeShown old c c') : c.fb = c'.fb := congrArg (fun s => s.2.1) (h.alike.screen h.ready)

theorem AlikeDecoding.shown (h : AlikeDecoding old c c') : AlikeShown old c c' := ⟨h.alike, h.ready⟩

theorem AlikeDecoding.fails (h : AlikeDecoding old c c') (message : String) :
    Paired Excused (fail message) (fun _ => AlikeDecoding old) c c' :=
  paired_fail h.alike.failedAlready h ⟨h.alike.both_failed message, mem_failed h.ready, h.inRect⟩

theorem AlikeDecoding.view (h : AlikeDecoding old c c') : workbench c = workbench c' := by
  have hprogress := h.alike.progress h.inRect
  simp only [progressOf, Prod.mk.injEq] at hprogress
  obtain ⟨hr, -, hx, hy, hbg, hfg⟩ := hprogress
  simp only [workbench, Workbench.mk.injEq]
  exact ⟨h.shown.work, hr, h.alike.dirty, hx, hy, hbg, hfg⟩

theorem AlikeDecoding.put (h : AlikeDecoding old c c') (w : Workbench) : AlikeDecoding old (w.onto c) (w.onto c') where
  alike :=
    { h.alike with
      dirty := rfl
      screen := fun _ => by
        have hscreen := h.alike.screen h.ready
        simp only [screenOf, Prod.mk.injEq] at hscreen
        simp only [screenOf, Workbench.onto, hscreen.2.1, hscreen.2.2]
      progress := fun hin => by
        have hencoding : c.encoding = c'.encoding := congrArg (fun p => p.2.1) (h.alike.progress hin)
        simp only [progressOf, Workbench.onto, hencoding] }
  ready := h.ready
  inRect := h.inRect

/-! ## The streams -/

theorem SameStream.refl (s : Option (InflateState E)) : SameStream s s := .inl rfl

/-- A stream that is as good as new, and its successor. -/
theorem Unused.reset {s : Option (InflateState E)} (h : Unused s) :
    (s.getD ⟨none⟩).reset = E.zlib.inflateInit.map fun zs => ⟨some zs⟩ := by
  rcases h with rfl | ⟨zs, hinit, rfl⟩
  · rfl
  · have hreset := E.zlib.init_reset zs hinit
    simp only [Option.getD_some, InflateState.reset, hreset, hinit]

theorem SameStream.reset {s s' : Option (InflateState E)} (h : SameStream s s') :
    (s.getD ⟨none⟩).reset = (s'.getD ⟨none⟩).reset := by
  rcases h with rfl | ⟨h, h'⟩
  · rfl
  · rw [h.reset, h'.reset]

/-- Streams that cannot be reset are the same. -/
theorem SameStream.getD {s s' : Option (InflateState E)} (h : SameStream s s') (hno : (s.getD ⟨none⟩).reset = none) :
    s.getD ⟨none⟩ = s'.getD ⟨none⟩ := by
  rcases h with rfl | ⟨h, h'⟩
  · rfl
  · rw [h.reset] at hno
    have hinit : E.zlib.inflateInit = none := by simpa using hno
    rcases h with rfl | ⟨zs, hzs, -⟩
    · rcases h' with rfl | ⟨zs, hzs, -⟩
      · rfl
      · rw [hinit] at hzs
        cases hzs
    · rw [hinit] at hzs
      cases hzs

theorem Alike.setStream (h : Alike old c c') {i : Fin 4} {s s' : Option (InflateState E)} (hs : SameStream s s') :
    Alike old { c with tightStreams := fun j => if j = i then s else c.tightStreams j }
      { c' with tightStreams := fun j => if j = i then s' else c'.tightStreams j } :=
  { h with
    tightStreams := fun j => by
      by_cases hj : j = i
      · simp only [if_pos hj]
        exact hs
      · simp only [if_neg hj]
        exact h.tightStreams j }

theorem AlikeDecoding.setStream (h : AlikeDecoding old c c') (i : Fin 4) (s : InflateState E) :
    Paired Excused (setStream i s) (fun _ => AlikeDecoding old) c c' :=
  paired_modify ⟨h.alike.setStream (.refl _), h.ready, h.inRect⟩

theorem AlikeDecoding.resetIfAsked (h : AlikeDecoding old c c') (control : UInt8) (i : Fin 4) :
    Paired Excused (resetIfAsked control i) (fun _ => AlikeDecoding old) c c' := by
  have hsame := h.alike.tightStreams i
  refine paired_ite (fun _ => ?_) (fun _ => paired_pure h)
  unfold Paired
  rw [bind_of_ok (gets_apply _ _), bind_of_ok (gets_apply _ _)]
  have heq : resetStream c.tightStreams i = resetStream c'.tightStreams i := hsame.reset
  rw [← heq]
  cases hr : resetStream c.tightStreams i with
  | none =>
    rw [← hsame.getD hr]
    have hfail : Paired Excused (Vnc.setStream i ((c.tightStreams i).getD ⟨none⟩) >>= fun _ => Vnc.failStep "zlib failed")
        (fun _ => AlikeDecoding old) c c' :=
      paired_bind ((h.setStream _ _).mono fun _ _ _ h => paired_bind ((h.fails _).mono fun _ _ _ h => paired_pure h))
    exact hfail
  | some s =>
    have hset : Paired Excused (Vnc.setStream i s >>= fun _ => pure true) (fun _ => AlikeDecoding old) c c' :=
      paired_bind ((h.setStream _ _).mono fun _ _ _ h => paired_pure h)
    exact hset

/-- The stream that is used, if there is one. -/
theorem SameStream.use {s s' : Option (InflateState E)} (h : SameStream s s') :
    s = s' ∨ ∃ zs, E.zlib.inflateInit = some zs ∧ (s = none ∨ s = some ⟨some zs⟩) ∧ (s' = none ∨ s' = some ⟨some zs⟩) := by
  rcases h with rfl | ⟨h, h'⟩
  · exact .inl rfl
  · rcases h with rfl | ⟨zs, hzs, rfl⟩
    · rcases h' with rfl | ⟨zs, hzs, rfl⟩
      · exact .inl rfl
      · exact .inr ⟨zs, hzs, .inl rfl, .inr rfl⟩
    · rcases h' with rfl | ⟨zs', hzs', rfl⟩
      · exact .inr ⟨zs, hzs, .inr rfl, .inl rfl⟩
      · rw [hzs] at hzs'
        cases hzs'
        exact .inl rfl

/-- A stream that is as good as new is used as a new one. -/
theorem tightStream_unused {i : Fin 4} {zs : E.zlib.Stream} (hinit : E.zlib.inflateInit = some zs)
    (h : c.tightStreams i = none ∨ c.tightStreams i = some ⟨some zs⟩) :
    tightStream i c = .ok (some ⟨some zs⟩,
      { c with tightStreams := fun j => if j = i then some ⟨some zs⟩ else c.tightStreams j }) := by
  unfold tightStream
  rw [bind_of_ok (gets_apply _ _)]
  rcases h with h | h
  · have hreset : resetStream c.tightStreams i = some ⟨some zs⟩ := by
      simp only [resetStream, h, Option.getD_none, InflateState.reset, hinit, Option.map_some]
    rw [h, hreset]
    rfl
  · have hsame : (fun j => if j = i then some ⟨some zs⟩ else c.tightStreams j) = c.tightStreams := by
      funext j
      by_cases hj : j = i
      · rw [if_pos hj, hj, h]
      · rw [if_neg hj]
    rw [h, hsame]
    rfl

theorem zrleState_unused {zs : E.zlib.Stream} (hinit : E.zlib.inflateInit = some zs)
    (h : c.zrleStream = none ∨ c.zrleStream = some ⟨some zs⟩) :
    zrleState c = .ok (some ⟨some zs⟩, { c with zrleStream := some ⟨some zs⟩ }) := by
  unfold zrleState
  rw [bind_of_ok (gets_apply _ _)]
  rcases h with h | h
  · have hreset : (InflateState.mk none : InflateState E).reset = some ⟨some zs⟩ := by
      simp only [InflateState.reset, hinit, Option.map_some]
    rw [h, hreset]
    rfl
  · have hsame : { c with zrleStream := some ⟨some zs⟩ } = c := by rw [← h]
    rw [hsame, h]
    rfl

theorem AlikeDecoding.tightStream (h : AlikeDecoding old c c') (i : Fin 4) :
    Paired Excused (tightStream i) (fun _ => AlikeDecoding old) c c' := by
  rcases (h.alike.tightStreams i).use with hsame | ⟨zs, hinit, hs, hs'⟩
  · unfold Paired Vnc.tightStream
    have hreset : resetStream c.tightStreams i = resetStream c'.tightStreams i := (h.alike.tightStreams i).reset
    rw [bind_of_ok (gets_apply _ _), bind_of_ok (gets_apply _ _), hsame, hreset]
    cases c'.tightStreams i with
    | some s => exact .ok _ h
    | none =>
      cases resetStream c'.tightStreams i with
      | none => exact .ok _ ⟨h.alike.setStream (.refl _), h.ready, h.inRect⟩
      | some s => exact .ok _ ⟨h.alike.setStream (.refl _), h.ready, h.inRect⟩
  · unfold Paired
    rw [tightStream_unused hinit hs, tightStream_unused hinit hs']
    exact .ok _ ⟨h.alike.setStream (.refl _), h.ready, h.inRect⟩

theorem AlikeDecoding.setZrleStream (h : AlikeDecoding old c c') (s : Option (InflateState E)) :
    AlikeDecoding old { c with zrleStream := s } { c' with zrleStream := s } :=
  ⟨{ h.alike with zrleStream := .refl s }, h.ready, h.inRect⟩

theorem AlikeDecoding.zrleState (h : AlikeDecoding old c c') :
    Paired Excused zrleState (fun _ => AlikeDecoding old) c c' := by
  rcases h.alike.zrleStream.use with hsame | ⟨zs, hinit, hs, hs'⟩
  · unfold Paired Vnc.zrleState
    rw [bind_of_ok (gets_apply _ _), bind_of_ok (gets_apply _ _), hsame]
    cases c'.zrleStream with
    | some s => exact .ok _ h
    | none =>
      cases (InflateState.mk none : InflateState E).reset with
      | none => exact .ok _ (h.setZrleStream _)
      | some s => exact .ok _ (h.setZrleStream _)
  · unfold Paired
    rw [zrleState_unused hinit hs, zrleState_unused hinit hs']
    exact .ok _ (h.setZrleStream _)

/-- Clients that are alike decode a rectangle in step. -/
def alikeLockstep (E : Env) (old : List Event) : Lockstep E where
  rel := AlikeDecoding old
  fault := Excused
  faults _ hf := hf
  buf h := h.alike.buf
  use _ h := { h with alike := { h.alike with buf := rfl } }
  fail message _ _ h := h.fails message
  view h := h.view
  put w h := h.put w
  emit event _ _ h := paired_modify
    ⟨{ h.alike with
        events := append_both h.alike.events
        screen := fun _ => h.alike.screen h.ready
        running := fun hs => List.mem_append_left _ (h.alike.running hs) },
      List.mem_append_left _ h.ready, h.inRect⟩
  alloc width height _ _ h := paired_modify
    ⟨{ h.alike with
        screen := fun _ => by
          have hscreen := h.alike.screen h.ready
          simp only [screenOf, Prod.mk.injEq] at hscreen
          simp only [screenOf, hscreen.2.2] },
      h.ready, h.inRect⟩
  resize _ _ h := paired_modify ⟨{ h.alike with resized := rfl }, h.ready, h.inRect⟩
  resetIfAsked control i _ _ h := h.resetIfAsked control i
  tightStream i _ _ h := h.tightStream i
  setStream i s _ _ h := h.setStream i s
  zrleState _ _ h := h.zrleState
  setZrleStream s _ _ h := paired_modify (h.setZrleStream s)

theorem AlikeDecoding.decodeRect (h : AlikeDecoding old c c') (encoding : Int) :
    Paired Excused (decodeRect encoding) (fun _ => AlikeDecoding old) c c' :=
  Lockstep.decodeRect (L := alikeLockstep E old) encoding c c' h

/-! ## The end of an update -/

/-- Clients that know their desktop, with the same data in front of them. -/
def shownTwins (E : Env) (old : List Event) : Twins E where
  rel := AlikeShown old
  fault := Excused
  faults _ hf := hf
  buf h := h.alike.buf
  use _ h := { h with alike := { h.alike with buf := rfl } }
  fail message _ _ h := h.fails message

abbrev Together (old : List Event) {α : Type} (m : ClientM E α) : Prop := InStep Excused (AlikeShown old) m

theorem together_emit (event : Event) : Together old (emit event : ClientM E Unit) :=
  inStep_modify fun _ _ h =>
    ⟨{ h.alike with
        events := append_both h.alike.events
        screen := fun _ => h.alike.screen h.ready
        running := fun hs => List.mem_append_left _ (h.alike.running hs) },
      List.mem_append_left _ h.ready⟩

theorem together_showPixel (x y : Nat) : Together old (showPixel x y : ClientM E Unit) := by
  intro c c' h
  refine paired_check (p := fun c : VncClient E => x < c.work.width ∧ y < c.work.height ∧ x < c.fb.width ∧ y < c.fb.height)
    (by rw [h.work, h.fb]) (by decide) fun _ => ⟨rfl, { h with alike := { h.alike with screen := fun _ => ?_ } }⟩
  have hscreen := h.alike.screen h.ready
  simp only [screenOf, Prod.mk.injEq] at hscreen
  simp only [screenOf, hscreen.1, hscreen.2.1, hscreen.2.2]

theorem together_requestUpdate (incremental : Bool) : Together old (requestUpdate incremental : ClientM E Unit) := by
  intro c c' h
  refine paired_bind (paired_gets h.alike.socket (paired_bind (paired_gets h.work (paired_ite (fun _ => paired_pure h) (fun hopen => ?_)))))
  have hc : c.socket = true := by
    simp only [Bool.or_eq_true, Bool.not_eq_true', not_or, Bool.not_eq_false] at hopen
    exact hopen.1
  exact paired_write hc (h.alike.socket ▸ hc) ⟨h.alike.wrote _, List.mem_append_left _ h.ready⟩

theorem together_finishUpdate : Together old (finishUpdate : ClientM E Unit) := by
  refine InStep.bind (inStep_modify fun _ _ h => ⟨{ h.alike with }, h.ready⟩) fun _ => ?_
  refine inStep_look (fun _ _ h => h.alike.dirty) fun c => inStep_look (fun _ _ h => h.work) fun d => ?_
  refine inStep_look (fun _ _ h => h.alike.resized) fun e => ?_
  refine InStep.bind (inStep_modify fun _ _ h => ⟨{ h.alike with dirty := rfl }, h.ready⟩) fun _ => ?_
  have hend : Together old (do
      requestUpdate (!e.resized)
      Action.modify fun c => { c with resized := false } : ClientM E Unit) :=
    (together_requestUpdate _).bind fun _ => inStep_modify fun _ _ h => ⟨{ h.alike with resized := rfl }, h.ready⟩
  have hshow (r : Rect) : Together old (showRect r : ClientM E Unit) :=
    inStep_forRange (fun row => inStep_forRange (fun col => together_showPixel _ _) _) _
  exact inStep_ite ((hshow _).bind fun _ => (together_emit _).bind fun _ => hend) hend

theorem AlikeDecoding.finishRect (h : AlikeDecoding old c c') : Paired Excused finishRect (fun _ => AlikeShown old) c c' := by
  have hmode : c.lastRectMode = c'.lastRectMode := h.alike.mode (.inl h.inRect)
  have hencoding : c.encoding = c'.encoding := congrArg (fun p => p.2.1) (h.alike.progress h.inRect)
  have hleft : c.rectsLeft = c'.rectsLeft := by
    refine h.alike.left.resolve_right fun hno => ?_
    rw [h.inRect] at hno
    cases hno.1
  have hdone {n n' : Int} {mode mode' : Bool} (hn : n = n') (hm : mode = mode') :
      AlikeShown old { c with inRect := false, lastRectMode := mode, rectsLeft := n }
        { c' with inRect := false, lastRectMode := mode', rectsLeft := n' } :=
    ⟨{ h.alike with
        inRect := rfl
        progress := fun hin => by cases hin
        left := .inl hn
        mode := fun _ => hm },
      h.ready⟩
  have hfinish {d d' : VncClient E} (hd : AlikeShown old d d') :
      Paired Excused (finishUpdate >>= fun _ => pure true) (fun _ => AlikeShown old) d d' :=
    paired_bind ((together_finishUpdate d d' hd).mono fun _ _ _ h => paired_pure h)
  refine paired_bind (paired_modify (paired_bind (paired_gets hmode (paired_bind (paired_gets hencoding ?_)))))
  refine paired_bind (paired_gets hleft (paired_ite (fun _ => paired_ite (fun _ => ?_) (fun _ => ?_)) (fun _ => ?_)))
  · exact paired_bind (paired_modify (hfinish (hdone rfl rfl)))
  · exact paired_pure (hdone hleft hmode)
  · refine paired_bind (paired_modify (paired_ite (fun _ => ?_) (fun _ => ?_)))
    · exact hfinish (hdone (by rw [hleft]) hmode)
    · exact paired_pure (hdone (by rw [hleft]) hmode)

/-! ## Server messages -/

theorem together_framebufferUpdate : Together old (framebufferUpdate : ClientM E Bool) := by
  refine Lockstep.need (T := shownTwins E old) _ ((Lockstep.u16 (T := shownTwins E old) _).bind fun count => ?_)
  refine InStep.bind (inStep_modify fun _ _ h => ?_) fun _ => (Lockstep.consume (T := shownTwins E old) _).bind fun _ => ?_
  · exact ⟨{ h.alike with left := .inl rfl, mode := fun _ => rfl }, h.ready⟩
  · exact inStep_ite (together_finishUpdate.bind fun _ => inStep_pure true) (inStep_pure true)

theorem together_serverMessage : Together old (serverMessage : ClientM E Bool) := by
  have hneed (n : Nat) {m : ClientM E Bool} (hm : Together old m) : Together old (need n m) :=
    Lockstep.need (T := shownTwins E old) n hm
  have hfail (message : String) : Together old (failStep message : ClientM E Bool) :=
    Lockstep.failStep (T := shownTwins E old) message
  have hconsume (n : Nat) : Together old (consume n : ClientM E Unit) := Lockstep.consume (T := shownTwins E old) n
  refine hneed _ ((Lockstep.u8 (T := shownTwins E old) _).bind fun type => inStep_ite together_framebufferUpdate ?_)
  refine inStep_ite ?colours (inStep_ite ?bell (inStep_ite ?text (hfail _)))
  case colours =>
    refine hneed _ ((Lockstep.u16 (T := shownTwins E old) _).bind fun colours => ?_)
    refine (Lockstep.int32 (T := shownTwins E old) _).bind fun total => hneed _ ((hconsume _).bind fun _ => ?_)
    exact inStep_pure true
  case bell => exact (hconsume _).bind fun _ => (together_emit _).bind fun _ => inStep_pure true
  case text =>
    refine hneed _ ((Lockstep.u32 (T := shownTwins E old) _).bind fun length => inStep_ite (hfail _) (hneed _ ?_))
    refine (Lockstep.bytes (T := shownTwins E old) _ _).bind fun text => (hconsume _).bind fun _ => ?_
    exact (together_emit _).bind fun _ => inStep_pure true

/-! ## Steps -/

theorem AlikeDecoding.continueRect (h : AlikeDecoding old c c') : Paired Excused continueRect (fun _ => Alike old) c c' := by
  have hencoding : c.encoding = c'.encoding := congrArg (fun p => p.2.1) (h.alike.progress h.inRect)
  refine paired_bind (paired_gets hencoding (paired_bind ((h.decodeRect _).mono fun done d d' hd => ?_)))
  exact paired_ite (fun _ => hd.finishRect.mono fun _ _ _ h => h.alike) (fun _ => paired_pure hd.alike)

/-- The header of a rectangle, of those an update has announced. -/
theorem AlikeShown.enterRect (h : AlikeShown old c c') (hleft : c.rectsLeft = c'.rectsLeft)
    (hmode : c.lastRectMode = c'.lastRectMode) : Paired Excused enterRect (fun _ => AlikeDecoding old) c c' := by
  have hbuf := h.alike.buf
  refine paired_bind (paired_u16 hbuf fun x => paired_bind (paired_u16 hbuf fun y => paired_bind (paired_u16 hbuf fun w => ?_)))
  refine paired_bind (paired_u16 hbuf fun height => paired_bind (paired_u32 hbuf fun encoding => paired_bind (paired_consume hbuf ?_)))
  refine paired_bind (paired_modify (paired_bind (paired_gets h.work ?_)))
  have hentered : AlikeDecoding old
      { c with buf := c'.buf.drop 12, rect := ⟨x, y, w, height⟩, encoding := toInt32 encoding, inRect := true, tileX := 0,
               tileY := 0, hexBg := qRgb 0 0 0, hexFg := qRgb 255 255 255 }
      { c' with buf := c'.buf.drop 12, rect := ⟨x, y, w, height⟩, encoding := toInt32 encoding, inRect := true, tileX := 0,
                tileY := 0, hexBg := qRgb 0 0 0, hexFg := qRgb 255 255 255 } :=
    ⟨{ h.alike with
        buf := rfl
        inRect := rfl
        progress := fun _ => rfl
        left := .inl hleft
        mode := fun _ => hmode },
      h.ready, rfl⟩
  refine paired_ite (fun _ => ?_) (fun _ => paired_pure hentered)
  exact paired_bind ((hentered.fails _).mono fun _ _ _ h => paired_pure h)

theorem alike_stepRunning (h : Alike old c c') (hs : c'.stage = .running) : Paired Excused stepRunning (fun _ => Alike old) c c' := by
  have hshown : AlikeShown old c c' := ⟨h, h.running hs⟩
  have hpending : (c.inRect ∨ c.rectsLeft > 0) ↔ (c'.inRect ∨ c'.rectsLeft > 0) := by
    rw [h.inRect]
    rcases h.left with hleft | ⟨-, hl, hl'⟩
    · rw [hleft]
    · have hn : ¬ c.rectsLeft > 0 := by omega
      have hn' : ¬ c'.rectsLeft > 0 := by omega
      simp only [hn, hn']
  have hstep : Paired Excused (fun c => (if c.inRect ∨ c.rectsLeft > 0 then stepRect else serverMessage : ClientM E Bool) c)
      (fun _ => Alike old) c c' := by
    unfold Paired
    by_cases hp : c'.inRect ∨ c'.rectsLeft > 0
    · simp only [if_pos hp, if_pos (hpending.mpr hp)]
      refine paired_bind (paired_gets h.inRect (paired_ite (fun hin => ?_) (fun hin => ?_)))
      · exact AlikeDecoding.continueRect ⟨h, h.running hs, h.inRect ▸ hin⟩
      · have hno : c'.inRect = false := by
          rw [h.inRect] at hin
          simpa using hin
        have hpos : 0 < c'.rectsLeft := hp.resolve_left (by rw [hno]; decide)
        have hleft : c.rectsLeft = c'.rectsLeft := h.left.resolve_right fun hno => by omega
        refine paired_need h.buf h (paired_bind ((hshown.enterRect hleft (h.mode (.inr hpos))).mono fun _ _ _ hd => ?_))
        exact paired_ite (fun _ => hd.continueRect) (fun _ => paired_pure hd.alike)
    · simp only [if_neg hp, if_neg fun hp' => hp (hpending.mp hp')]
      exact (together_serverMessage c c' hshown).mono fun _ _ _ h => h.alike
  exact hstep

theorem alike_step (h : Alike old c c') : Paired Excused step (fun _ => Alike old) c c' := by
  refine paired_bind (paired_gets h.stage ?_)
  rw [h.stage]
  cases hs : c'.stage with
  | idle => exact paired_pure h
  | version => exact alike_stepVersion h hs
  | securityTypes => exact alike_stepSecurityTypes h hs
  | authChallenge => exact alike_stepAuthChallenge h hs
  | securityResult => exact alike_stepSecurityResult h hs
  | securityReason => exact alike_stepSecurityReason h
  | serverInit => exact alike_stepServerInit h hs
  | running => exact alike_stepRunning h hs

/-! ## Events -/

theorem alike_stepWhile (n : Nat) (h : Alike old c c') : Paired Excused (stepWhile n) (fun _ => Alike old) c c' := by
  induction n generalizing c c' with
  | zero => exact paired_pure h
  | succ n ih =>
    refine paired_bind (paired_gets h.stage (paired_ite (fun _ => paired_pure h) (fun _ => paired_bind ?_)))
    exact (alike_step h).mono fun more _ _ h => paired_ite (fun _ => ih h) (fun _ => paired_pure h)

theorem Alike.appended (h : Alike old c c') (chunk : List UInt8) : Alike old (appendChunk chunk c) (appendChunk chunk c') :=
  { h with buf := congrArg (· ++ chunk) h.buf }

theorem alike_onReadyRead (h : Alike old c c') (chunk : List UInt8) : Paired Excused (onReadyRead chunk) (fun _ => Alike old) c c' := by
  have happ := h.appended chunk
  have hleft : stepsLeft (appendChunk chunk c) = stepsLeft (appendChunk chunk c') := by
    simp only [stepsLeft, happ.buf, happ.inRect]
  unfold Paired onReadyRead
  simp only [happ.buf, hleft]
  split
  · exact alike_stepWhile _ happ
  · exact .error _ (by decide)

/-- A connection is opened, whatever there was before. -/
theorem Alike.started (h : Alike old c c') {maxMinor maxMinor' : Nat} (hmax : maxMinor = maxMinor') :
    Alike old { c with maxMinor := maxMinor, failedAlready := false, buf := [], stage := .version, socket := true }
      { c' with maxMinor := maxMinor', failedAlready := false, buf := [], stage := .version, socket := true } :=
  { h with
    socket := rfl
    buf := rfl
    stage := rfl
    maxMinor := hmax
    failedAlready := rfl
    open_iff := by simp
    failed := fun hf => by cases hf
    minor := fun _ hv => absurd rfl hv
    running := fun hs => by cases hs }

/-- `if (retryOlderProtocol()) return;` in front of a failure. -/
theorem alike_retryOrFail (h : Alike old c c') (hidle : c'.stage ≠ .idle) (message : String) :
    Paired Excused (retryOlderProtocol >>= fun retried => if retried then pure () else fail message) (fun _ => Alike old) c c' := by
  have hminor (hs : c'.stage = .securityTypes) : c.minor = c'.minor := h.minor hidle (by rw [hs]; decide)
  have hretry : Paired Excused retryOlderProtocol (fun _ => Alike old) c c' := by
    unfold Paired retryOlderProtocol
    rw [bind_of_ok (gets_apply _ _), bind_of_ok (gets_apply _ _)]
    by_cases hno : c'.stage ≠ .securityTypes ∨ c'.buf ≠ [] ∨ c'.minor ≤ 3
    · have hno' : c.stage ≠ .securityTypes ∨ c.buf ≠ [] ∨ c.minor ≤ 3 := by
        rw [h.stage, h.buf]
        by_cases hs : c'.stage = .securityTypes
        · rwa [hminor hs]
        · exact .inl hs
      rw [if_pos hno, if_pos hno']
      exact .ok _ h
    · have hs : c'.stage = .securityTypes := by_contra fun hs => hno (.inl hs)
      have hno' : ¬ (c.stage ≠ .securityTypes ∨ c.buf ≠ [] ∨ c.minor ≤ 3) := by rwa [h.stage, h.buf, hminor hs]
      rw [if_neg hno, if_neg hno']
      exact .ok _ (h.started (congrArg (fun minor => if minor ≥ 8 then 7 else 3) (hminor hs)))
  exact paired_bind (hretry.mono fun retried _ _ h => paired_ite (fun _ => paired_pure h) (fun _ => h.fail _))

theorem alike_onSocketClosed (h : Alike old c c') : Paired Excused onSocketClosed (fun _ => Alike old) c c' := by
  refine paired_bind (paired_gets h.stage (paired_ite (fun _ => paired_pure h) (fun hidle => ?_)))
  rw [h.stage] at hidle
  refine paired_ite (fun _ => paired_bind (paired_modify (paired_modify ?_))) (fun _ => alike_retryOrFail h hidle _)
  exact { h with
    events := append_both h.events
    socket := rfl
    stage := rfl
    open_iff := by simp
    failed := fun _ => rfl
    minor := fun hi => absurd rfl hi
    screen := fun hr => h.screen (by simpa using hr)
    running := fun hs => by cases hs }

theorem alike_onSocketError (h : Alike old c c') (remoteHostClosed : Bool) (message : String) :
    Paired Excused (onSocketError remoteHostClosed message) (fun _ => Alike old) c c' := by
  refine paired_bind (paired_gets h.stage (paired_ite (fun _ => paired_pure h) (fun hidle => ?_)))
  rw [h.stage] at hidle
  refine paired_ite (fun _ => h.fail _) (fun _ => paired_ite (fun _ => paired_pure h) (fun _ => ?_))
  exact alike_retryOrFail h hidle _

theorem alike_deliver (h : Alike old c c') (event : SocketEvent) : Paired Excused (deliver event) (fun _ => Alike old) c c' := by
  refine paired_bind (paired_gets h.socket (paired_ite (fun _ => ?_) (fun _ => paired_pure h)))
  cases event with
  | readyRead chunk => exact alike_onReadyRead h chunk
  | disconnected => exact alike_onSocketClosed h
  | errorOccurred remoteHostClosed message => exact alike_onSocketError h remoteHostClosed message

/-- Clients that are alike react to every run of events alike. -/
theorem alike_run (h : Alike old c c') (events : List SocketEvent) : Paired Excused (run events) (fun _ => Alike old) c c' := by
  induction events generalizing c c' with
  | nil => exact paired_pure h
  | cons event events ih => exact paired_bind ((alike_deliver h event).mono fun _ _ _ h => ih h)

end LvdTerm.Vnc
