import LvdTerm.Terminal.Reconnect

/-!
# TerminalView: the overlay

What a pane shows when its connection is down: the overlay with its label and its one button, over the state machine of `Reconnect`
(`run_view`), with everything the user can do about it. A pane that is down shows a countdown or a button to reconnect, unless the
countdown was cancelled (`way_back_iff`).
-/
namespace LvdTerm.Terminal

open ReconnectPolicy Lib.Runs

/-! ## The overlay over the view -/

inductive OverlayLabel where
  | countdown (secondsRemaining : Int) (attempt : Nat)
  | gaveUp
  | disconnected
  deriving DecidableEq

inductive OverlayButton where
  | cancel | retryNow | reconnectNow
  deriving DecidableEq

structure Overlay where
  visible : Bool
  label : OverlayLabel
  button : OverlayButton
  deriving DecidableEq

structure OverlaidView where
  view : TerminalView
  /-- `m_overlay`, once it was needed. -/
  overlay : Option Overlay
  /-- What the transport at hand has reported last. -/
  reported : Option TransportState
  deriving DecidableEq

namespace OverlaidView

def opened : OverlaidView := ⟨.opened, none, none⟩

def showOverlay (label : OverlayLabel) (button : OverlayButton) (v : OverlaidView) : OverlaidView :=
  { v with overlay := some ⟨true, label, button⟩ }

def hideOverlay (v : OverlaidView) : OverlaidView := { v with overlay := v.overlay.map fun o => { o with visible := false } }

def scheduleReconnect (v : OverlaidView) : OverlaidView :=
  let scheduled := { v with view := Terminal.scheduleReconnect v.view }
  if v.view.attempt ≥ kMaxAttempts then scheduled.showOverlay .gaveUp .retryNow
  else scheduled.showOverlay (.countdown scheduled.view.secondsRemaining scheduled.view.attempt) .cancel

def showManualReconnectPrompt (v : OverlaidView) : OverlaidView := v.showOverlay .disconnected .reconnectNow

def onStateChanged (state : TransportState) (v : OverlaidView) : OverlaidView :=
  if state = .connected then { v with view := { v.view with attempt := 0, gaveUp := false } }.hideOverlay
  else if state = .disconnected ∨ state = .error then
    if v.view.autoReconnect then
      if !v.view.gaveUp then v.scheduleReconnect else v
    else v.showManualReconnectPrompt
  else v

def setState (state : TransportState) (v : OverlaidView) : OverlaidView :=
  if v.view.transport ≠ state then { v with view := v.view.at state, reported := some state }.onStateChanged state else v

def tickCountdown (v : OverlaidView) : OverlaidView :=
  let view := Terminal.tickCountdown v.view
  if view.secondsRemaining ≤ 0 then { v with view }
  else { v with view, overlay := v.overlay.map fun o => { o with label := .countdown view.secondsRemaining view.attempt } }

/-- The new transport has not reported anything yet. -/
def doReconnectNow (v : OverlaidView) : OverlaidView :=
  if v.view.transport = .connecting then v
  else { v.hideOverlay with view := Terminal.doReconnectNow v.view, reported := none }

def canRespawn (v : OverlaidView) : Bool := v.view.transport ≠ .connecting

def respawn (v : OverlaidView) : OverlaidView := if v.canRespawn then v.doReconnectNow else v

def reconfigure (v : OverlaidView) : OverlaidView :=
  if !v.canRespawn then v
  else
    { v.hideOverlay with
      view := { v.view with countdownTimer := none, reconnectTimer := none, gaveUp := false, attempt := 0, transport := .disconnected }
      reported := none }

def cancelReconnect (v : OverlaidView) : OverlaidView :=
  { v with view := { v.view with countdownTimer := none, reconnectTimer := none, attempt := 0, gaveUp := false } }.hideOverlay

def shown (v : OverlaidView) : Bool := v.overlay.any (·.visible)

/-- A timer runs: this is what the button goes by. -/
def counting (v : OverlaidView) : Bool := v.view.countdownTimer.isSome || v.view.reconnectTimer.isSome

/-- A click on the button, where it is there to be clicked. -/
def buttonClicked (v : OverlaidView) : OverlaidView :=
  if !v.shown then v else if v.counting then v.cancelReconnect else v.doReconnectNow

inductive Event where
  | setState (state : TransportState)
  | reconnectTimeout
  | countdownTimeout
  | buttonClicked
  /-- "Reconnect" in the menu of the status bar. -/
  | doReconnectNow
  | respawn
  | reconfigure
  | setAutoReconnectEnabled (enabled : Bool)
  deriving DecidableEq

def step (v : OverlaidView) : Event → OverlaidView
  | .setState state => v.setState state
  | .reconnectTimeout =>
    match v.view.reconnectTimer with
    | none => v
    | some _ => { v with view := { v.view with reconnectTimer := none } }.doReconnectNow
  | .countdownTimeout =>
    match v.view.countdownTimer with
    | none => v
    | some _ => v.tickCountdown
  | .buttonClicked => v.buttonClicked
  | .doReconnectNow => v.doReconnectNow
  | .respawn => v.respawn
  | .reconfigure => v.reconfigure
  | .setAutoReconnectEnabled enabled => { v with view := { v.view with autoReconnect := enabled } }

/-! ## Without the overlay -/

@[simp] theorem showOverlay_view (label : OverlayLabel) (button : OverlayButton) (v : OverlaidView) :
    (v.showOverlay label button).view = v.view := rfl

@[simp] theorem hideOverlay_view (v : OverlaidView) : v.hideOverlay.view = v.view := rfl

@[simp] theorem showOverlay_reported (label : OverlayLabel) (button : OverlayButton) (v : OverlaidView) :
    (v.showOverlay label button).reported = v.reported := rfl

@[simp] theorem hideOverlay_reported (v : OverlaidView) : v.hideOverlay.reported = v.reported := rfl

theorem scheduleReconnect_view (v : OverlaidView) : v.scheduleReconnect.view = Terminal.scheduleReconnect v.view := by
  unfold scheduleReconnect
  split <;> simp

theorem onStateChanged_view (state : TransportState) (v : OverlaidView) :
    (v.onStateChanged state).view = Terminal.onStateChanged state v.view := by
  unfold onStateChanged Terminal.onStateChanged
  split
  · simp
  · split
    · split
      · split
        · exact scheduleReconnect_view v
        · rfl
      · rfl
    · rfl

/-- What happens to a pane that the user leaves alone is what `Reconnect` says. -/
def ofView : ViewEvent → Event
  | .setState state => .setState state
  | .reconnectTimeout => .reconnectTimeout
  | .countdownTimeout => .countdownTimeout

theorem step_view (v : OverlaidView) (event : ViewEvent) : (v.step (ofView event)).view = v.view.step event := by
  cases event with
  | setState state =>
    simp only [ofView, step, setState, TerminalView.step, Terminal.setState]
    split
    · exact onStateChanged_view state _
    · rfl
  | reconnectTimeout =>
    simp only [ofView, step, TerminalView.step]
    cases v.view.reconnectTimer with
    | none => rfl
    | some n =>
      simp only [doReconnectNow, Terminal.doReconnectNow]
      split <;> simp_all
  | countdownTimeout =>
    simp only [ofView, step, TerminalView.step]
    cases v.view.countdownTimer with
    | none => rfl
    | some n =>
      simp only [tickCountdown]
      split <;> rfl

/-- The transport has reported that the connection is down. -/
def Down (v : OverlaidView) : Prop := v.reported = some .disconnected ∨ v.reported = some .error

instance (v : OverlaidView) : Decidable v.Down := inferInstanceAs (Decidable (_ ∨ _))

/-- The overlay is visible, with a countdown or a button to reconnect. -/
def WayBack (v : OverlaidView) : Prop :=
  ∃ o, v.overlay = some o ∧ o.visible = true ∧ (v.view.reconnectTimer ≠ none ∨ o.button ≠ .cancel)

structure Guarded (v : OverlaidView) : Prop where
  reported : ∀ state, v.reported = some state → v.view.transport = state
  gaveUp : v.view.gaveUp = true → ∃ o, v.overlay = some o ∧ o.visible = true ∧ o.button ≠ .cancel

theorem Guarded.doReconnectNow {v : OverlaidView} (h : v.Guarded) : v.doReconnectNow.Guarded := by
  unfold OverlaidView.doReconnectNow
  split
  · exact h
  next hc => exact ⟨by simp, by simp [Terminal.doReconnectNow, hc]⟩

theorem Guarded.reconfigure {v : OverlaidView} (h : v.Guarded) : v.reconfigure.Guarded := by
  unfold OverlaidView.reconfigure
  split
  · exact h
  · exact ⟨by simp, by simp⟩

theorem guarded_cancelReconnect {v : OverlaidView} (h : v.Guarded) : v.cancelReconnect.Guarded :=
  ⟨fun state hstate => h.reported state hstate, by simp [cancelReconnect]⟩

/-- Giving up is what `scheduleReconnect` says on the overlay. -/
theorem scheduleReconnect_spec (v : OverlaidView) (hg : v.view.gaveUp = false) :
    (v.scheduleReconnect.view.gaveUp = true → ∃ o, v.scheduleReconnect.overlay = some o ∧ o.visible = true ∧ o.button ≠ .cancel) ∧
      v.scheduleReconnect.WayBack ∧ v.scheduleReconnect.reported = v.reported ∧
      v.scheduleReconnect.view.transport = v.view.transport := by
  unfold scheduleReconnect
  split
  next hmax => simp [showOverlay, WayBack, Terminal.scheduleReconnect, hmax]
  next hmax => simp [showOverlay, WayBack, Terminal.scheduleReconnect, hmax, hg]

theorem onStateChanged_spec {state : TransportState} {v : OverlaidView} (hreported : v.reported = some state)
    (htransport : v.view.transport = state)
    (hgaveUp : v.view.gaveUp = true → ∃ o, v.overlay = some o ∧ o.visible = true ∧ o.button ≠ .cancel) :
    (v.onStateChanged state).Guarded ∧ ((v.onStateChanged state).Down → (v.onStateChanged state).WayBack) := by
  have hsame {v' : OverlaidView} (hr : v'.reported = v.reported) (ht : v'.view.transport = v.view.transport) :
      ∀ state', v'.reported = some state' → v'.view.transport = state' := by
    intro state' hstate'
    rw [hr, hreported, Option.some.injEq] at hstate'
    rw [ht, htransport, hstate']
  unfold onStateChanged
  split
  next hup =>
    refine ⟨⟨hsame rfl rfl, by simp⟩, fun hdown => ?_⟩
    simp [Down, hreported, hup] at hdown
  next hup =>
    split
    next hstate =>
      split
      next hauto =>
        split
        next hg =>
          obtain ⟨hspec, hway, hr, ht⟩ := scheduleReconnect_spec v (by simpa using hg)
          exact ⟨⟨hsame hr ht, hspec⟩, fun _ => hway⟩
        next hg =>
          obtain ⟨o, ho, hvisible, hbutton⟩ := hgaveUp (by simpa using hg)
          exact ⟨⟨hsame rfl rfl, hgaveUp⟩, fun _ => ⟨o, ho, hvisible, .inr hbutton⟩⟩
      next hauto =>
        simp only [showManualReconnectPrompt]
        exact ⟨⟨hsame rfl rfl, fun _ => by simp [showOverlay]⟩, fun _ => by simp [showOverlay, WayBack]⟩
    next hstate =>
      refine ⟨⟨hsame rfl rfl, hgaveUp⟩, fun hdown => ?_⟩
      simp only [Down, hreported, Option.some.injEq] at hdown
      exact absurd hdown hstate

/-- The button is not used to cancel a countdown while the connection is down. -/
def NotCancelled (v : OverlaidView) : Event → Prop
  | .buttonClicked => v.shown = true → v.counting = true → ¬ v.Down
  | _ => True

instance (v : OverlaidView) (event : Event) : Decidable (v.NotCancelled event) := by
  cases event <;> simp only [NotCancelled] <;> infer_instance

/-- A new transport has reported nothing, or the attempt at hand goes on. -/
theorem doReconnectNow_spec {v : OverlaidView} (h : v.Guarded) : ¬ v.doReconnectNow.Down := by
  unfold doReconnectNow
  split
  next hc =>
    rintro (hd | hd)
    · exact absurd (hc.symm.trans (h.reported _ hd)) (by decide)
    · exact absurd (hc.symm.trans (h.reported _ hd)) (by decide)
  · simp [Down]

theorem guarded_tickCountdown {v : OverlaidView} (h : v.Guarded) :
    v.tickCountdown.Guarded ∧ ((v.Down → v.WayBack) → v.tickCountdown.Down → v.tickCountdown.WayBack) := by
  have hview : (Terminal.tickCountdown v.view).transport = v.view.transport ∧ (Terminal.tickCountdown v.view).gaveUp = v.view.gaveUp ∧
      (Terminal.tickCountdown v.view).reconnectTimer = v.view.reconnectTimer := by
    unfold Terminal.tickCountdown
    dsimp only
    split <;> simp
  obtain ⟨ht, hg, hr⟩ := hview
  unfold tickCountdown
  dsimp only
  split
  · refine ⟨⟨fun state hstate => ht.trans (h.reported state hstate), fun hgave => h.gaveUp (hg ▸ hgave)⟩, fun hway hdown => ?_⟩
    obtain ⟨o, ho, hvisible, hback⟩ := hway hdown
    exact ⟨o, ho, hvisible, hback.imp_left fun htimer => hr ▸ htimer⟩
  · refine ⟨⟨fun state hstate => ht.trans (h.reported state hstate), fun hgave => ?_⟩, fun hway hdown => ?_⟩
    · obtain ⟨o, ho, hvisible, hbutton⟩ := h.gaveUp (hg ▸ hgave)
      simp [ho, hvisible, hbutton]
    · obtain ⟨o, ho, hvisible, hback⟩ := hway hdown
      simpa [WayBack, ho, hvisible, hr] using hback

theorem guarded_step {v : OverlaidView} (h : v.Guarded) (event : Event) : (v.step event).Guarded := by
  cases event with
  | setState state =>
    unfold step setState
    dsimp only
    split
    · exact (onStateChanged_spec (v := { v with view := v.view.at state, reported := some state }) rfl rfl h.gaveUp).1
    · exact h
  | reconnectTimeout =>
    unfold step
    dsimp only
    split
    · exact h
    · exact Guarded.doReconnectNow ⟨h.reported, h.gaveUp⟩
  | countdownTimeout =>
    unfold step
    dsimp only
    split
    · exact h
    · exact (guarded_tickCountdown h).1
  | buttonClicked =>
    unfold step buttonClicked
    dsimp only
    split
    · exact h
    · split
      · exact guarded_cancelReconnect h
      · exact h.doReconnectNow
  | doReconnectNow => exact h.doReconnectNow
  | respawn =>
    unfold step respawn
    dsimp only
    split
    · exact h.doReconnectNow
    · exact h
  | reconfigure => exact h.reconfigure
  | setAutoReconnectEnabled enabled => exact ⟨h.reported, h.gaveUp⟩

theorem step_iff {v : OverlaidView} (h : v.Guarded) (hway : v.Down → v.WayBack) (event : Event) :
    ((v.step event).Down → (v.step event).WayBack) ↔ v.NotCancelled event := by
  have hreconnect : v.doReconnectNow.Down → v.doReconnectNow.WayBack := fun hdown => absurd hdown (doReconnectNow_spec h)
  cases event with
  | setState state =>
    refine iff_of_true ?_ trivial
    unfold step setState
    dsimp only
    split
    · exact (onStateChanged_spec (v := { v with view := v.view.at state, reported := some state }) rfl rfl h.gaveUp).2
    · exact hway
  | reconnectTimeout =>
    refine iff_of_true ?_ trivial
    unfold step
    dsimp only
    split
    · exact hway
    · exact fun hdown => absurd hdown (doReconnectNow_spec ⟨h.reported, h.gaveUp⟩)
  | countdownTimeout =>
    refine iff_of_true ?_ trivial
    unfold step
    dsimp only
    split
    · exact hway
    · exact (guarded_tickCountdown h).2 hway
  | buttonClicked =>
    simp only [step, buttonClicked, NotCancelled]
    by_cases hshown : v.shown = true
    · by_cases hcounting : v.counting = true
      · simp only [hshown, hcounting, Bool.not_true, Bool.false_eq_true, if_false, if_true, forall_const]
        constructor
        · intro hafter hdown
          obtain ⟨o, ho, hvisible, -⟩ := hafter hdown
          obtain ⟨o', -, rfl⟩ := Option.map_eq_some_iff.mp ho
          simp at hvisible
        · exact fun hdown hd => absurd hd hdown
      · simp only [hshown, hcounting, Bool.not_true, Bool.false_eq_true, if_false, false_imp_iff, implies_true, iff_true]
        exact hreconnect
    · simpa [hshown] using hway
  | doReconnectNow => exact iff_of_true hreconnect trivial
  | respawn =>
    refine iff_of_true ?_ trivial
    unfold step respawn
    dsimp only
    split
    · exact hreconnect
    · exact hway
  | reconfigure =>
    refine iff_of_true ?_ trivial
    unfold step reconfigure
    dsimp only
    split
    · exact hway
    · simp [Down]
  | setAutoReconnectEnabled enabled => exact iff_of_true hway trivial

theorem guarded_opened : opened.Guarded := ⟨nofun, nofun⟩

/-- There is a way back whenever the connection is down if and only if no countdown is cancelled while it is down. -/
theorem way_back_iff (events : List Event) :
    (∀ done, done <+: events → (run step done opened).Down → (run step done opened).WayBack) ↔ Along step NotCancelled events opened := by
  have hstep (v : OverlaidView) (event : Event) (h : v.Guarded ∧ (v.Down → v.WayBack)) :
      (v.step event).Guarded ∧ ((v.step event).Down → (v.step event).WayBack) ↔ v.NotCancelled event := by
    rw [step_iff h.1 h.2]
    exact and_iff_right (guarded_step h.1 event)
  have hopened : ¬ opened.Down := by decide
  refine Iff.trans ?_ (along_iff_always hstep events ⟨guarded_opened, fun hdown => absurd hdown hopened⟩).symm
  constructor
  · intro h done hdone
    exact ⟨run_keeps (I := Guarded) (fun _ event hv => guarded_step hv event) done guarded_opened, h done hdone⟩
  · intro h done hdone
    exact (h done hdone).2

/-- The connection drops, and "Cancel" is clicked. -/
theorem cancelled_without_way_back : ¬ ((run step [.setState .connecting, .setState .disconnected, .buttonClicked] opened).Down →
    (run step [.setState .connecting, .setState .disconnected, .buttonClicked] opened).WayBack) := by
  intro h
  obtain ⟨o, ho, hvisible, -⟩ := h (by decide)
  have hoverlay : (run step [.setState .connecting, .setState .disconnected, .buttonClicked] opened).overlay =
      some ⟨false, .countdown 1 1, .cancel⟩ := by decide
  rw [ho, Option.some.injEq] at hoverlay
  rw [hoverlay] at hvisible
  cases hvisible

end OverlaidView

end LvdTerm.Terminal
