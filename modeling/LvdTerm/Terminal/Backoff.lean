import LvdTerm.Terminal.Reconnect

/-!
# TerminalView: backing off and giving up

`BacksOff` is the policy of one step: the k-th failure in a row schedules the next attempt
`delaySecondsForAttempt k` seconds later and is counted once, and after `kMaxAttempts` failed
attempts no other is made. `doReconnectNow` clears the count for automatic attempts too, and
a transport may report one failure twice; the runs without either (`Counted`) are exactly
those that follow the policy.
-/
namespace LvdTerm.Terminal

open Lib.Runs ReconnectPolicy

/-- A change of the transport's state to one of the two that mean that it is down. -/
def ReportsDown (v : TerminalView) (state : TransportState) : Prop :=
  v.transport ≠ state ∧ (state = .disconnected ∨ state = .error)

/-- The same failure reported again. -/
structure Unchanged (v v' : TerminalView) : Prop where
  attempt : v'.attempt = v.attempt
  gaveUp : v'.gaveUp = v.gaveUp
  reconnectTimer : v'.reconnectTimer = v.reconnectTimer

def BacksOff (p : Pane) : ViewEvent → Prop
  | .setState state => ReportsDown p.view state →
    if p.ledger.down then Unchanged p.view (p.step (.setState state)).view
    else (p.step (.setState state)).view.reconnectTimer =
      if p.ledger.failures + 1 ≤ kMaxAttempts then some (delaySecondsForAttempt (p.ledger.failures + 1) * 1000)
      else p.view.reconnectTimer
  | .reconnectTimeout => attempts p.view → p.ledger.failedAttempts < kMaxAttempts
  | .countdownTimeout => True

/-- A failure arrives while the view still counts from the last `Connected`, and only once. -/
def Counted (p : Pane) : ViewEvent → Prop
  | .setState state => ReportsDown p.view state →
    p.view.gaveUp = true ∨ (p.ledger.down = false ∧ p.ledger.retried = false)
  | .reconnectTimeout => True
  | .countdownTimeout => True

/-! ## The invariant of counted runs -/

structure Counts (p : Pane) : Prop where
  autoReconnect : p.view.autoReconnect = true
  attempt : p.ledger.retried = false → p.view.attempt = min p.ledger.failures kMaxAttempts
  gaveUp : p.ledger.retried = false → (p.view.gaveUp = true ↔ kMaxAttempts < p.ledger.failures)
  down : p.ledger.down = true → 0 < p.ledger.failures
  retried : p.ledger.retried = true → p.ledger.down = false ∧ 0 < p.ledger.failures ∧ p.view.attempt = 0 ∧
    p.view.gaveUp = false ∧ p.view.reconnectTimer = none
  failed_le : p.ledger.failedAttempts ≤ 1
  failed_zero : p.ledger.failures = 0 → p.ledger.failedAttempts = 0
  auto : p.ledger.auto = true → p.ledger.retried = false → p.ledger.failures = 0

theorem counts_opened : Counts .opened where
  autoReconnect := rfl
  attempt _ := rfl
  gaveUp _ := by decide
  down h := by cases h
  retried h := by cases h
  failed_le := by decide
  failed_zero _ := rfl
  auto h := by cases h

theorem delay_one : delaySecondsForAttempt 1 = 1 := rfl

/-- Only the first delay is one second. -/
theorem one_lt_delay {k : Nat} (h : 2 ≤ k) : 1 < delaySecondsForAttempt k := by
  have hpow : 2 ^ 1 ≤ 2 ^ (k - 1) := Nat.pow_le_pow_right (by decide) (by omega)
  unfold delaySecondsForAttempt
  simp only
  split
  · omega
  · split <;> omega

variable {p : Pane} {state : TransportState}

/-! ## Reports of a state -/

theorem step_same (h : ¬ p.view.transport ≠ state) : p.step (.setState state) = p := by
  simp only [Pane.step, TerminalView.step, setState, Ledger.step, if_neg h]

theorem step_changed (h : p.view.transport ≠ state) :
    p.step (.setState state) =
      ⟨onStateChanged state (p.view.at state), p.ledger.report state⟩ := by
  simp only [Pane.step, TerminalView.step, setState, Ledger.step, if_pos h]

/-- What a report that the transport is down does to the view. -/
theorem view_gaveUp (h : ReportsDown p.view state) (hg : p.view.gaveUp = true) :
    (p.step (.setState state)).view = p.view.at state := by
  rw [step_changed h.1]
  rcases h.2 with rfl | rfl <;> simp [onStateChanged, TerminalView.at, hg]

theorem view_scheduled (hc : Counts p) (h : ReportsDown p.view state) (hg : p.view.gaveUp = false) :
    (p.step (.setState state)).view = scheduleReconnect (p.view.at state) := by
  rw [step_changed h.1]
  rcases h.2 with rfl | rfl <;> simp [onStateChanged, TerminalView.at, hc.autoReconnect, hg]

theorem ledger_down (h : ReportsDown p.view state) : (p.step (.setState state)).ledger = p.ledger.drop := by
  rw [step_changed h.1]
  rcases h.2 with rfl | rfl <;> rfl

theorem scheduleReconnect_over {v : TerminalView} (h : v.attempt ≥ kMaxAttempts) :
    scheduleReconnect v = { v with gaveUp := true } := if_pos h

theorem scheduleReconnect_timer {v : TerminalView} (h : v.attempt < kMaxAttempts) :
    (scheduleReconnect v).attempt = v.attempt + 1 ∧ (scheduleReconnect v).gaveUp = v.gaveUp ∧
      (scheduleReconnect v).autoReconnect = v.autoReconnect ∧
      (scheduleReconnect v).reconnectTimer = some (delaySecondsForAttempt (v.attempt + 1) * 1000) := by
  unfold scheduleReconnect
  rw [if_neg (by omega)]
  exact ⟨rfl, rfl, rfl, rfl⟩

/-- Counting again what has been counted shows in the count or in the give-up flag. -/
theorem scheduleReconnect_changes {v : TerminalView} (hg : v.gaveUp = false) :
    (scheduleReconnect v).attempt ≠ v.attempt ∨ (scheduleReconnect v).gaveUp ≠ v.gaveUp := by
  by_cases h : v.attempt ≥ kMaxAttempts
  · rw [scheduleReconnect_over h, hg]
    exact .inr fun h => by cases h
  · rw [(scheduleReconnect_timer (by omega)).1]
    exact .inl (by omega)

theorem Counts.not_retried (hc : Counts p) (hg : p.view.gaveUp = true) : p.ledger.retried = false := by
  cases hr : p.ledger.retried with
  | false => rfl
  | true =>
    rw [(hc.retried hr).2.2.2.1] at hg
    cases hg

theorem Counts.few (hc : Counts p) (hr : p.ledger.retried = false) (hg : p.view.gaveUp = false) :
    p.ledger.failures ≤ kMaxAttempts := by
  by_contra hmany
  rw [(hc.gaveUp hr).mpr (by omega)] at hg
  cases hg

/-- A view that has given up leaves everything as it is, and should. -/
theorem backsOff_gaveUp (hc : Counts p) (h : ReportsDown p.view state) (hg : p.view.gaveUp = true) :
    BacksOff p (.setState state) := by
  intro _
  have hmany := (hc.gaveUp (hc.not_retried hg)).mp hg
  rw [view_gaveUp h hg]
  split
  · exact ⟨rfl, rfl, rfl⟩
  · rw [if_neg (by omega)]
    rfl

theorem backsOff_scheduled (hc : Counts p) (h : ReportsDown p.view state) (hg : p.view.gaveUp = false)
    (hdown : p.ledger.down = false) (hr : p.ledger.retried = false) : BacksOff p (.setState state) := by
  intro _
  have hattempt : (p.view.at state).attempt = min p.ledger.failures kMaxAttempts := hc.attempt hr
  have hfew := hc.few hr hg
  rw [view_scheduled hc h hg, hdown]
  simp only [Bool.false_eq_true, if_false]
  by_cases hlast : p.ledger.failures = kMaxAttempts
  · rw [scheduleReconnect_over (by omega), if_neg (by omega)]
    rfl
  · have hsame : (p.view.at state).attempt = p.ledger.failures := by omega
    rw [(scheduleReconnect_timer (by omega)).2.2.2, if_pos (by omega), hsame]

/-- A failure that is reported again is counted again. -/
theorem counted_of_unchanged (hc : Counts p) (h : ReportsDown p.view state) (hg : p.view.gaveUp = false)
    (hb : BacksOff p (.setState state)) : p.ledger.down = false := by
  cases hd : p.ledger.down with
  | false => rfl
  | true =>
    have hb := hb h
    rw [if_pos hd, view_scheduled hc h hg] at hb
    have hg' : (p.view.at state).gaveUp = false := hg
    rcases scheduleReconnect_changes hg' with hne | hne
    · exact absurd hb.attempt hne
    · exact absurd hb.gaveUp hne

/-- After an automatic attempt the count starts over: the delay is that of a first failure. -/
theorem counted_of_delay (hc : Counts p) (h : ReportsDown p.view state) (hg : p.view.gaveUp = false)
    (hdown : p.ledger.down = false) (hb : BacksOff p (.setState state)) : p.ledger.retried = false := by
  cases hr : p.ledger.retried with
  | false => rfl
  | true =>
    obtain ⟨_, hfailed, hattempt, _, htimer⟩ := hc.retried hr
    have hattempt' : (p.view.at state).attempt = 0 := hattempt
    have hfirst := (scheduleReconnect_timer (v := p.view.at state) (by rw [hattempt']; decide)).2.2.2
    have hb := hb h
    rw [view_scheduled hc h hg, hfirst, hattempt', hdown, htimer] at hb
    simp only [Bool.false_eq_true, if_false] at hb
    split at hb
    · have hdelay := one_lt_delay (k := p.ledger.failures + 1) (by omega)
      have heq := Option.some.inj hb
      rw [Nat.zero_add, delay_one] at heq
      omega
    · cases hb

/-- The one step at which the policy can be broken. -/
theorem backsOff_down_iff (hc : Counts p) (h : ReportsDown p.view state) :
    BacksOff p (.setState state) ↔ Counted p (.setState state) := by
  cases hg : p.view.gaveUp with
  | true => exact ⟨fun _ _ => .inl hg, fun _ => backsOff_gaveUp hc h hg⟩
  | false =>
    constructor
    · intro hb _
      have hdown := counted_of_unchanged hc h hg hb
      exact .inr ⟨hdown, counted_of_delay hc h hg hdown hb⟩
    · intro hcount
      obtain hgave | ⟨hdown, hr⟩ := hcount h
      · rw [hg] at hgave
        cases hgave
      · exact backsOff_scheduled hc h hg hdown hr

theorem backsOff_iff_counted (hc : Counts p) (event : ViewEvent) : BacksOff p event ↔ Counted p event := by
  cases event with
  | setState state =>
    by_cases h : ReportsDown p.view state
    · exact backsOff_down_iff hc h
    · exact ⟨fun _ hd => absurd hd h, fun _ hd => absurd hd h⟩
  | reconnectTimeout =>
    refine ⟨fun _ => trivial, fun _ _ => ?_⟩
    have := hc.failed_le
    unfold kMaxAttempts
    omega
  | countdownTimeout => exact Iff.rfl

/-! ## What a counted step keeps -/

/-- Only the transport's state and the countdown differ. -/
theorem Counts.view (hc : Counts p) {v : TerminalView} (hauto : v.autoReconnect = p.view.autoReconnect)
    (hattempt : v.attempt = p.view.attempt) (hgave : v.gaveUp = p.view.gaveUp)
    (htimer : p.view.reconnectTimer = none → v.reconnectTimer = none) : Counts ⟨v, p.ledger⟩ where
  autoReconnect := by rw [hauto, hc.autoReconnect]
  attempt hr := by rw [hattempt, hc.attempt hr]
  gaveUp hr := by rw [hgave]; exact hc.gaveUp hr
  down := hc.down
  retried hr :=
    have ⟨h1, h2, h3, h4, h5⟩ := hc.retried hr
    ⟨h1, h2, hattempt.trans h3, hgave.trans h4, htimer h5⟩
  failed_le := hc.failed_le
  failed_zero := hc.failed_zero
  auto := hc.auto

/-- A failure counted for the first time. -/
theorem Counts.counted (hc : Counts p) (hdown : p.ledger.down = false) (hr : p.ledger.retried = false)
    {v : TerminalView} (hauto : v.autoReconnect = true)
    (hattempt : v.attempt = min (p.ledger.failures + 1) kMaxAttempts)
    (hgave : v.gaveUp = true ↔ kMaxAttempts < p.ledger.failures + 1) : Counts ⟨v, p.ledger.drop⟩ := by
  unfold Ledger.drop
  rw [hdown, if_neg (by decide)]
  refine ⟨hauto, fun _ => hattempt, fun _ => hgave, fun _ => Nat.succ_pos _, fun h => ?_, ?_, fun h => ?_, fun h => ?_⟩
  · rw [hr] at h
    cases h
  · simp only
    split
    · rename_i ha
      have hzero := hc.failed_zero (hc.auto ha hr)
      have hpos : 0 < kMaxAttempts := by decide
      omega
    · exact hc.failed_le
  · cases h
  · cases h

theorem counts_down (hc : Counts p) (h : ReportsDown p.view state) (hcount : Counted p (.setState state)) :
    Counts (p.step (.setState state)) := by
  have hstep : p.step (.setState state) = ⟨(p.step (.setState state)).view, (p.step (.setState state)).ledger⟩ := rfl
  rw [hstep, ledger_down h]
  cases hg : p.view.gaveUp with
  | true =>
    have hr := hc.not_retried hg
    have hmany := (hc.gaveUp hr).mp hg
    rw [view_gaveUp h hg]
    cases hd : p.ledger.down with
    | true =>
      unfold Ledger.drop
      rw [hd, if_pos rfl]
      exact hc.view rfl rfl rfl id
    | false =>
      have hattempt : (p.view.at state).attempt = min p.ledger.failures kMaxAttempts := hc.attempt hr
      exact hc.counted hd hr hc.autoReconnect (by omega) ⟨fun _ => by omega, fun _ => hg⟩
  | false =>
    obtain hgave | ⟨hdown, hr⟩ := hcount h
    · rw [hg] at hgave
      cases hgave
    have hattempt : (p.view.at state).attempt = min p.ledger.failures kMaxAttempts := hc.attempt hr
    have hfew := hc.few hr hg
    rw [view_scheduled hc h hg]
    by_cases hlast : p.ledger.failures = kMaxAttempts
    · rw [scheduleReconnect_over (by omega)]
      exact hc.counted hdown hr hc.autoReconnect (by simp only; omega) ⟨fun _ => by omega, fun _ => rfl⟩
    · obtain ⟨h1, h2, h3, _⟩ := scheduleReconnect_timer (v := p.view.at state) (by omega)
      refine hc.counted hdown hr (h3.trans hc.autoReconnect) (by omega) ⟨fun hgave => ?_, fun hmany => by omega⟩
      have hno : (p.view.at state).gaveUp = false := hg
      rw [h2, hno] at hgave
      cases hgave

/-- An automatic attempt clears the count. -/
theorem counts_attempt (hc : Counts p) (h : attempts p.view) : Counts (p.step .reconnectTimeout) := by
  obtain ⟨htimer, hconn⟩ := h
  obtain ⟨ms, hms⟩ := Option.ne_none_iff_exists'.mp htimer
  have hstep : p.step .reconnectTimeout =
      ⟨{ p.view with reconnectTimer := none, countdownTimer := none, gaveUp := false, attempt := 0,
                     transport := .disconnected },
        { p.ledger with down := false, auto := true, retried := p.ledger.retried || p.ledger.failures ≠ 0 }⟩ := by
    have hattempts : attempts p.view := ⟨htimer, hconn⟩
    simp only [Pane.step, TerminalView.step, Ledger.step, hms, doReconnectNow, if_neg hconn, if_pos hattempts]
  have hzero : (p.ledger.retried || p.ledger.failures ≠ 0) = false → p.ledger.failures = 0 := by
    intro hr
    simp only [Bool.or_eq_false_iff, decide_eq_false_iff_not, not_not] at hr
    exact hr.2
  rw [hstep]
  refine ⟨hc.autoReconnect, fun hr => ?_, fun hr => ?_, fun hd => ?_, fun hr => ?_, hc.failed_le, hc.failed_zero,
    fun _ hr => hzero hr⟩
  · simp only [hzero hr, Nat.zero_min]
  · simp only [hzero hr]
    decide
  · cases hd
  · refine ⟨rfl, ?_, rfl, rfl, rfl⟩
    rcases Bool.or_eq_true_iff.mp hr with hr | hne
    · exact (hc.retried hr).2.1
    · exact Nat.pos_of_ne_zero (of_decide_eq_true hne)

theorem counts_step (event : ViewEvent) (hc : Counts p) (hcount : Counted p event) : Counts (p.step event) := by
  cases event with
  | setState state =>
    by_cases hchanged : p.view.transport ≠ state
    · by_cases hdown : state = .disconnected ∨ state = .error
      · exact counts_down hc ⟨hchanged, hdown⟩ hcount
      · rw [step_changed hchanged]
        cases state with
        | disconnected => exact absurd (.inl rfl) hdown
        | error => exact absurd (.inr rfl) hdown
        | connecting =>
          have hview : Counts ⟨p.view.at .connecting, p.ledger⟩ := hc.view rfl rfl rfl id
          exact ⟨hview.autoReconnect, hview.attempt, hview.gaveUp, fun h => (by cases h),
            fun hr => ⟨rfl, (hview.retried hr).2⟩, hview.failed_le, hview.failed_zero, hview.auto⟩
        | connected =>
          refine ⟨hc.autoReconnect, fun _ => rfl, fun _ => ⟨fun h => ?_, fun h => ?_⟩, fun h => ?_, fun h => ?_,
            Nat.zero_le _, fun _ => rfl, fun h => ?_⟩ <;> cases h
    · rw [step_same hchanged]
      exact hc
  | reconnectTimeout =>
    by_cases h : attempts p.view
    · exact counts_attempt hc h
    · have hledger : (p.step .reconnectTimeout).ledger = p.ledger := if_neg h
      have hview : (p.step .reconnectTimeout).view = { p.view with reconnectTimer := none } := by
        cases ht : p.view.reconnectTimer with
        | none => simp only [Pane.step, TerminalView.step, ht]; rw [← ht]
        | some ms =>
          have hconn : p.view.transport = .connecting := by
            by_contra hne
            exact h ⟨by rw [ht]; exact Option.some_ne_none _, hne⟩
          simp only [Pane.step, TerminalView.step, ht, doReconnectNow, if_pos hconn]
      have hstep : p.step .reconnectTimeout = ⟨{ p.view with reconnectTimer := none }, p.ledger⟩ := by
        rw [← hview, ← hledger]
      rw [hstep]
      exact hc.view rfl rfl rfl fun _ => rfl
  | countdownTimeout =>
    have hstep : p.step .countdownTimeout = ⟨p.view.step .countdownTimeout, p.ledger⟩ := rfl
    rw [hstep]
    unfold TerminalView.step tickCountdown
    cases p.view.countdownTimer with
    | none => exact hc
    | some ms =>
      simp only
      split <;> exact hc.view rfl rfl rfl id

/-! ## Runs -/

/-- A run follows the policy exactly when every failure is counted once and from the last
`Connected` on. -/
theorem backs_off_iff_counted (events : List ViewEvent) :
    Along Pane.step BacksOff events .opened ↔ Along Pane.step Counted events .opened :=
  along_congr (fun _ event => counts_step event) (fun _ event hc => backsOff_iff_counted hc event) counts_opened

/-- Two refused connections in a row: the second one waits a second again, not two. -/
theorem second_failure_starts_over :
    ¬ Along Pane.step BacksOff
      [.setState .connecting, .setState .error, .reconnectTimeout, .setState .connecting, .setState .error]
      .opened := by
  rintro ⟨_, _, _, _, hb, _⟩
  have htimer : some 1000 = some 2000 := hb ⟨by decide, .inr rfl⟩
  cases htimer

end LvdTerm.Terminal
