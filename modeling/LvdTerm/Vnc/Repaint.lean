import LvdTerm.Vnc.Display

/-!
# VNC client: what a repaint can see

`m_fb` is meant to change in `finishUpdate` only, whole updates at a time. It does, as long as no
DesktopSize rectangle is decoded: that one blackens `m_fb` on the spot, with the rest of its update
still to come.
-/
namespace LvdTerm.Vnc

open Lib Lib.Action

variable {E : Env} {c c' mid : VncClient E}

/-- What there is to see after a step, with `image` before it. -/
def Mark.shows (image : Image) : Mark → Image
  | .began work => work
  | .completed _ => image
  | .updated work => work

/-- `m_work` as the session began, and from then on as it was at the end of the last update. -/
def shown (marks : List Mark) : Image := marks.foldl Mark.shows .null

/-- `m_fb` is left alone, or changed by `finishUpdate` alone. -/
def ChangedAtEnd (c c' : VncClient E) : Prop :=
  c'.fb = c.fb ∨ ∃ mid, Finishing c mid ∧ mid.fb = c.fb ∧ finishUpdate mid = .ok ((), c')

/-- In the runs of `c₀` with `P` before every move. -/
structure WholeUpdates (P : VncClient E → Prop) (c₀ : VncClient E) : Prop where
  repaint : ∀ marks c, MovesUnder P c₀ marks c → c.stage = .running → c.fb.Same (shown marks)
  changed : ∀ marks c new c', MovesUnder P c₀ marks c → P c → c.stage = .running → Move c new c' → ChangedAtEnd c c'

/-- No DesktopSize rectangle that the client accepts is next. -/
def KeepsSize (c : VncClient E) : Prop :=
  ∀ c₁, pendingRect c = some c₁ → c₁.encoding = encDesktopSize → ¬ sizeAllowed c₁.rect

/-! ## Steps -/

theorem pendingRect_failedAlready {c₁ : VncClient E} (hrect : pendingRect c = some c₁) : c₁.failedAlready = c.failedAlready := by
  rcases pendingRect_cases hrect with ⟨-, rfl⟩ | ⟨-, rfl⟩ <;> rfl

theorem pendingRect_fb {c₁ : VncClient E} (hrect : pendingRect c = some c₁) : c₁.fb = c.fb := by
  rcases pendingRect_cases hrect with ⟨-, rfl⟩ | ⟨-, rfl⟩ <;> rfl

theorem counted_fb (c : VncClient E) : (counted c).fb = c.fb := by
  obtain ⟨mode, left, heq⟩ := counted_eq c
  rw [heq]

theorem RunningStep.changedAtEnd {done : Bool} (h : RunningStep c done c') (hkeeps : KeepsSize c) :
    ChangedAtEnd c c' ∧ (¬ c.updates < c'.updates → c'.fb = c.fb) := by
  cases h with
  | message | refused | update | noHeader | outside => exact ⟨.inl rfl, fun _ => rfl⟩
  | emptyUpdate hheader hfinish =>
    refine ⟨.inr ⟨_, .empty hheader, rfl, hfinish⟩, fun hup => ?_⟩
    exact absurd (Nat.lt_succ_self _) hup
  | partly hdue hrect hwait hdec =>
    have hfb := hdec.fb.trans (pendingRect_fb hrect)
    exact ⟨.inl hfb, fun _ => hfb⟩
  | @complete c₁ c₂ hdue hrect hno hdone hdec hlive hcov hfinish =>
    have hfb := (counted_fb c₂).trans (hdec.fb.trans (pendingRect_fb hrect))
    by_cases hlast : lastOfUpdate c₂ = true
    · refine ⟨.inr ⟨_, .rect hdue hrect hdone hlast, hfb, hfinish hlast⟩, fun hup => ?_⟩
      rw [rectFinished, if_pos hlast, finished, counted_updates, hdec.updates, pendingRect_updates hrect] at hup
      exact absurd (Nat.lt_succ_self _) hup
    · rw [rectFinished, if_neg hlast]
      exact ⟨.inl hfb, fun _ => hfb⟩
  | resize hdue hrect hsize hallowed => exact absurd hallowed (hkeeps _ hrect hsize)

theorem SocketStep.fb (h : SocketStep c c') : c'.fb = c.fb := by
  cases h <;> rfl

theorem Effect.changedAtEnd {new : List Mark} (h : Effect c new c') (hs : c.stage = .running) (hkeeps : KeepsSize c) :
    ChangedAtEnd c c' := by
  cases h with
  | arrive => exact .inl rfl
  | socket hstep => exact .inl hstep.fb
  | handshake hno => exact absurd hs hno.2
  | running _ hstep => exact (hstep.changedAtEnd hkeeps).1

/-! ## Runs -/

theorem shown_append (marks new : List Mark) :
    shown (marks ++ new) = new.foldl Mark.shows (shown marks) := List.foldl_append

/-- A step of the session leaves the image shown, unless it counts an update. -/
theorem shown_step (marks : List Mark) (done : Bool) (hs : c.stage = .running) :
    shown (marks ++ stepMarks c done c') = if c.updates < c'.updates then c'.work else shown marks := by
  rw [shown_append, stepMarks, if_neg fun h => h.1 hs, List.nil_append, List.foldl_append]
  split <;> split <;> rfl

/-- Of the handshake only `ServerInit` leads to a session, and both images are black then. -/
theorem HandshakeStep.shown {done : Bool} (h : HandshakeStep c done c') (hno : c.stage ≠ .running) (hs : c'.stage = .running)
    (marks : List Mark) : c'.fb.Same (shown (marks ++ stepMarks c done c')) := by
  cases h with
  | wait => exact absurd hs hno
  | failed => cases hs
  | version => cases hs
  | advance _ _ _ _ _ hstage => exact absurd hs hstage.2.2.2
  | ready _ width height _ _ buf name =>
    have hbegan : Vnc.shown (marks ++ stepMarks c true (started width height buf name c)) = .black width height := by
      have hup : ¬ c.updates < (started width height buf name c).updates := Nat.lt_irrefl _
      rw [shown_append, stepMarks, if_pos ⟨hno, hs⟩, if_neg fun h => hno h.1, if_neg hup]
      rfl
    rw [hbegan]
    exact ⟨rfl, rfl, fun _ _ _ _ => rfl⟩

theorem Effect.shown {marks new : List Mark} (h : Effect c new c') (hagree : Agree c) (hkeeps : KeepsSize c)
    (hsame : c.stage = .running → c.fb.Same (shown marks)) (hs : c'.stage = .running) : c'.fb.Same (shown (marks ++ new)) := by
  cases h with
  | arrive =>
    rw [List.append_nil]
    exact hsame hs
  | socket hstep =>
    rw [List.append_nil]
    cases hstep with
    | ignored => exact hsame hs
    | ended | failed | retried => cases hs
  | handshake hno hstep => exact hstep.shown hno.2 hs marks
  | running hrun hstep =>
    rw [shown_step marks _ hrun]
    split
    · rename_i hup
      obtain ⟨mid, -, hfinish, hmid, hin⟩ := hstep.finishing hagree hup
      obtain rfl := finishUpdate_ok hfinish
      exact (hmid.shows hin).same
    · rename_i hup
      rw [(hstep.changedAtEnd hkeeps).2 hup]
      exact hsame hrun

/-- Where no DesktopSize rectangle is decoded, every image a repaint can see is that of a prefix of whole updates. -/
theorem whole_updates_without_resize (E : Env) (provider : Option (Option String)) (encodings : List Int) (password : String) :
    WholeUpdates KeepsSize (.connecting E provider encodings password) := by
  have hstart := inv_connecting E provider encodings password
  refine ⟨fun marks c hm => ?_, fun marks c new c' hm hkeeps hs hmove => ?_⟩
  · induction hm with
    | refl => exact fun hs => by cases hs
    | tail hm hkeeps hmove ih =>
      exact (hmove.effect (hm.moves.inv hstart)).shown (moves_agree hm.moves) hkeeps ih
  · exact (hmove.effect (hm.moves.inv hstart)).changedAtEnd hs hkeeps

/-! ## A DesktopSize rectangle in front of another one -/

/-- A session with one white pixel on the screen. -/
def whitePixel : List UInt8 :=
  version38 ++ [1, 1] ++ [0, 0, 0, 0] ++
    [0, 1, 0, 1] ++ List.replicate 16 0 ++ [0, 0, 0, 0] ++
    [0, 0, 0, 1] ++ [0, 0, 0, 0, 0, 1, 0, 1, 0, 0, 0, 0] ++ [255, 255, 255, 0]

/-- A DesktopSize rectangle. -/
def desktopSizeRect : List UInt8 := [0, 0, 0, 0, 0, 1, 0, 1, 255, 255, 255, 33]

/-- The client with the white pixel, told of an update of two rectangles. -/
def whiteScreen : VncClient .bare :=
  left (.connecting .bare none [] "") (run [.readyRead whitePixel, .readyRead [0, 0, 0, 2]] (.connecting .bare none [] ""))

def beforeResize : VncClient .bare := appendChunk desktopSizeRect whiteScreen

def afterResize : VncClient .bare := left beforeResize (step beforeResize)

theorem whiteScreen_moves : ∃ marks, Moves (.connecting .bare none [] "") marks whiteScreen :=
  run_moves _ (inv_connecting .bare none [] "") (eq_ok_of_value _ (by decide +kernel))

/-- `finishUpdate` is called with the updates counted so far. -/
theorem Finishing.updates (h : Finishing c mid) (hf : c.failedAlready = false) : mid.updates = c.updates := by
  cases h with
  | empty => rfl
  | @rect c₁ c₂ hdue hrect hdone hlast =>
    rw [counted_updates, ← pendingRect_updates hrect]
    by_cases hsize : c₁.encoding = encDesktopSize
    · rw [hsize] at hdone
      rcases decodeDesktopSize_ok ((pendingRect_failedAlready hrect).trans hf) hdone with ⟨hno, -⟩ | ⟨-, -, rfl⟩
      · cases hno
      · rfl
    · exact (decodeRect_decodes (r := c₁.rect) hsize _ _ _ hdone rfl).updates

/-- The DesktopSize rectangle turns the white pixel black, and the update is not finished. -/
theorem resize_blackens_screen : ¬ WholeUpdates (fun _ => True) (.connecting .bare none [] "") := by
  intro h
  obtain ⟨marks, hmoves⟩ := whiteScreen_moves
  have hbefore : Moves (.connecting .bare none [] "") marks beforeResize := by
    have happended := hmoves.tail (.arrive desktopSizeRect (by decide +kernel))
    rwa [List.append_nil] at happended
  have hstep : step beforeResize = .ok (true, afterResize) := eq_ok_of_value _ (by decide +kernel)
  rcases h.changed _ _ _ _ hbefore.under trivial (by decide +kernel) (.step (by decide +kernel) (by decide +kernel) hstep) with
    hsame | ⟨mid, hmid, -, hfinish⟩
  · have hpixel := congrArg (fun image => image.pixel 0 0) hsame
    exact absurd hpixel (by decide +kernel)
  · obtain hafter := congrArg VncClient.updates (finishUpdate_ok hfinish)
    have hcounted : afterResize.updates = beforeResize.updates + 1 :=
      hafter.trans (congrArg (· + 1) (hmid.updates (by decide +kernel)))
    exact absurd hcounted (by decide +kernel)

end LvdTerm.Vnc
