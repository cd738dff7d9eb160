import LvdTerm.Lib.Association
import LvdTerm.Rdp.RdpInput

/-!
# RDP: what is typed arrives

Input is sent in the order it was pushed in, and the session thread never sleeps over it. Once no key is held and nothing
is on its way, nothing is down on the remote machine: as long as no release is dropped because the queue is full, and none
comes with another Qt key than the press (`Follows`).
-/
namespace LvdTerm.Rdp

open Lib.Association Lib.Presses Lib.Runs

/-- Pressed, and not released since. -/
def StillDown (events : List InputEvent) (scan : Scan) : Prop := Down (scancodeEvent scan true) (scancodeEvent scan false) events

theorem scancodeEvent_inj {scan other : Scan} {down down' : Bool} (h : scancodeEvent scan down = scancodeEvent other down') :
    scan = other ∧ down = down' := by
  obtain ⟨code, extended⟩ := scan
  obtain ⟨code', extended'⟩ := other
  have hcode : code.toUInt16 = code'.toUInt16 := congrArg InputEvent.code h
  have hflags := congrArg InputEvent.flags h
  have hsame : code = code' := by
    have hnat := congrArg UInt16.toNat hcode
    rw [UInt8.toNat_toUInt16, UInt8.toNat_toUInt16] at hnat
    exact UInt8.toNat_inj.mp hnat
  subst hsame
  have hall : ∀ e e' d d' : Bool, ((if e then KBD_FLAGS_EXTENDED else 0) ||| (if d then KBD_FLAGS_DOWN else KBD_FLAGS_RELEASE)) =
      ((if e' then KBD_FLAGS_EXTENDED else 0) ||| (if d' then KBD_FLAGS_DOWN else KBD_FLAGS_RELEASE)) → e = e' ∧ d = d' := by
    decide
  obtain ⟨rfl, rfl⟩ := hall extended extended' down down' hflags
  exact ⟨rfl, rfl⟩

namespace RdpSession

/-- What was sent, is on its way, or is going to be pushed. -/
def stream (s : RdpSession) : List InputEvent := s.sent ++ s.events ++ s.input ++ s.todo

/-- A held key that meets `other` has reported a Qt key under which the widget keeps the scan code. -/
def Recorded (s : RdpSession) (other : Nat × Int → Prop) (scan : Scan) : Prop :=
  ∃ held ∈ s.heldLocally, other held ∧ s.heldKeys.lookup held.2 = some scan

/-- A release is not dropped while its key is down; and what is down is the key it is looked up under, or is kept under a Qt
key of another held key. -/
def Follows (s : RdpSession) : Step → Prop
  | .gui (.keyRelease physical event) => s.todo = [] → s.focused = true → event.autoRepeat = false →
      ∀ scan, StillDown s.stream scan → s.heldKeys.lookup event.key = some scan ∨ s.Recorded (·.1 ≠ physical) scan
  | .push => ∀ scan, s.todo.head? = some (scancodeEvent scan false) → StillDown (s.sent ++ s.events ++ s.input) scan →
      s.input.length ≤ kMaxInput
  | _ => True

/-- What the two threads owe. -/
structure Delivers (s : RdpSession) : Prop where
  ordered : (s.sent ++ s.events ++ s.input).Sublist s.pushed
  awake : s.phase = .waiting → s.input ≠ [] → s.wake = true ∨ 0 < s.setting
  released : s.input = [] → s.events = [] → s.todo = [] → s.heldLocally = [] ∨ s.focused = false ∨ s.heldKeys = [] →
    ∀ scan, ¬ StillDown s.sent scan

/-! ## Order and waking -/

/-- What holds in every run. -/
structure Paced (s : RdpSession) : Prop where
  ordered : (s.sent ++ s.events ++ s.input).Sublist s.pushed
  awake : s.phase ≠ .swapping → s.input ≠ [] → s.wake = true ∨ 0 < s.setting
  idle : s.phase ≠ .draining → s.events = []

variable {s : RdpSession}

/-- The part of a session that is not the GUI thread's. -/
theorem Paced.congr {s' : RdpSession} (h : Paced s) (hsent : s'.sent = s.sent) (hevents : s'.events = s.events)
    (hinput : s'.input = s.input) (hpushed : s'.pushed = s.pushed) (hphase : s'.phase = s.phase) (hwake : s'.wake = s.wake)
    (hsetting : s'.setting = s.setting) : Paced s' where
  ordered := by
    rw [hsent, hevents, hinput, hpushed]
    exact h.ordered
  awake := by
    rw [hphase, hinput, hwake, hsetting]
    exact h.awake
  idle := by
    rw [hphase, hevents]
    exact h.idle

theorem Paced.reported (h : Paced s) (heldLocally : List (Nat × Int)) : Paced { s with heldLocally := heldLocally } :=
  h.congr rfl rfl rfl rfl rfl rfl rfl

theorem Paced.keyPressEvent (h : Paced s) (event : QKeyEvent) : Paced (s.keyPressEvent event) := by
  unfold RdpSession.keyPressEvent
  split
  · exact h
  · split
    · exact h.congr rfl rfl rfl rfl rfl rfl rfl
    · dsimp only
      split
      · exact h
      · exact h.congr rfl rfl rfl rfl rfl rfl rfl

theorem Paced.keyReleaseEvent (h : Paced s) (event : QKeyEvent) : Paced (s.keyReleaseEvent event) := by
  unfold RdpSession.keyReleaseEvent
  split
  · exact h
  · split
    · exact h
    · exact h.congr rfl rfl rfl rfl rfl rfl rfl

theorem Paced.gui (h : Paced s) (event : GuiEvent) : Paced (s.gui event) := by
  unfold RdpSession.gui
  split
  · exact h
  · cases event with
    | keyPress physical event => exact (h.reported ((physical, event.key) :: s.heldLocally)).keyPressEvent event
    | keyRelease physical event => exact (h.reported _).keyReleaseEvent event
    | focusIn => exact h.congr rfl rfl rfl rfl rfl rfl rfl
    | focusOut order => exact h.congr rfl rfl rfl rfl rfl rfl rfl
    | mouse x y changed pressed => exact h.congr rfl rfl rfl rfl rfl rfl rfl
    | wheel x y delta => exact h.congr rfl rfl rfl rfl rfl rfl rfl
    | clipboardChanged => exact h.congr rfl rfl rfl rfl rfl rfl rfl

theorem Paced.push (h : Paced s) : Paced s.push := by
  unfold RdpSession.push
  split
  · exact h
  · rename_i e todo _
    split
    · exact ⟨h.ordered.trans (List.sublist_append_left _ _), h.awake, h.idle⟩
    · refine ⟨?_, fun _ _ => .inr (Nat.succ_pos _), h.idle⟩
      dsimp only
      rw [← List.append_assoc]
      exact h.ordered.append (.refl [e])

theorem Paced.setEvent (h : Paced s) : Paced s.setEvent := by
  unfold RdpSession.setEvent
  split
  · exact h
  · exact ⟨h.ordered, fun _ _ => .inl rfl, h.idle⟩

/-- The event is reset before the queue is taken: what comes after that is signalled after that. -/
theorem Paced.runThread (h : Paced s) : Paced s.runThread := by
  unfold RdpSession.runThread
  split
  · exact ⟨h.ordered, fun _ => h.awake (by simp [*]), fun _ => h.idle (by simp [*])⟩
  · exact ⟨h.ordered, fun _ => h.awake (by simp [*]), fun _ => h.idle (by simp [*])⟩
  · exact ⟨h.ordered, fun _ => h.awake (by simp [*]), fun _ => h.idle (by simp [*])⟩
  · exact ⟨h.ordered, fun hphase => absurd rfl hphase, fun _ => h.idle (by simp [*])⟩
  · have hevents := h.idle (by simp [*])
    have hordered := h.ordered
    rw [hevents, List.append_nil] at hordered
    refine ⟨?_, fun _ hinput => absurd rfl hinput, fun hphase => absurd rfl hphase⟩
    dsimp only
    rwa [List.append_nil]
  · split
    · exact ⟨h.ordered, fun _ => h.awake (by simp [*]), fun _ => ‹s.events = []›⟩
    · rename_i e events hevents
      have hordered := h.ordered
      rw [hevents] at hordered
      refine ⟨?_, fun _ => h.awake (by simp [*]), fun hphase => absurd ‹s.phase = .draining› hphase⟩
      dsimp only
      rwa [List.append_assoc s.sent, List.singleton_append]

theorem Paced.step (h : Paced s) (i : Step) : Paced (s.step i) := by
  cases i with
  | gui event => exact h.gui event
  | push => exact h.push
  | setEvent => exact h.setEvent
  | runThread => exact h.runThread

/-! ## What is down is held -/

structure Tracked (s : RdpSession) : Prop where
  paced : Paced s
  recorded : ∀ scan, StillDown s.stream scan → s.Recorded (fun _ => True) scan
  unfocused : s.focused = false → s.heldKeys = []
  kept : ∀ key scan, s.heldKeys.lookup key = some scan → scan = scanFor key

theorem Tracked.delivers (h : Tracked s) : Delivers s where
  ordered := h.paced.ordered
  awake hphase := h.paced.awake (by rw [hphase]; decide)
  released hinput hevents htodo hgone scan hdown := by
    have hstream : s.stream = s.sent := by
      rw [stream, hinput, hevents, htodo, List.append_nil, List.append_nil, List.append_nil]
    obtain ⟨held, hmem, -, hlookup⟩ := h.recorded scan (hstream ▸ hdown)
    rcases hgone with hgone | hgone | hgone
    · rw [hgone] at hmem
      cases hmem
    · rw [h.unfocused hgone] at hlookup
      cases hlookup
    · rw [hgone] at hlookup
      cases hlookup

theorem tracked_bind (heldLocally : List (Nat × Int)) (focused : Bool) : Tracked (.bind heldLocally focused) where
  paced := ⟨.refl _, fun _ h => absurd rfl h, fun _ => rfl⟩
  recorded _ h := absurd h not_down_nil
  unfocused _ := rfl
  kept _ _ h := by cases h

/-- Messages that are no scan codes put nothing down. -/
theorem stillDown_quiet {a b : List InputEvent} (hb : ∀ e ∈ b, e.kind ≠ .scancode) {scan : Scan} (h : StillDown (a ++ b) scan) :
    StillDown a scan := by
  rcases down_append.mp h with ⟨before, after, rfl, -⟩ | hdown
  · exact absurd rfl (hb (scancodeEvent scan true) (by simp))
  · exact hdown.1

/-- The session after a handler: it has changed the table, and what it has to push is still to do. -/
theorem Tracked.handled (h : Tracked s) (htodo : s.todo = []) {heldLocally : List (Nat × Int)} {focused : Bool}
    {heldKeys : List (Int × Scan)} {todo : List InputEvent}
    (hrecorded : ∀ scan, StillDown (s.stream ++ todo) scan → ∃ held ∈ heldLocally, heldKeys.lookup held.2 = some scan)
    (hunfocused : focused = false → heldKeys = []) (hkept : ∀ key scan, heldKeys.lookup key = some scan → scan = scanFor key) :
    Tracked { s with heldLocally := heldLocally, focused := focused, heldKeys := heldKeys, todo := todo } where
  paced := h.paced.congr rfl rfl rfl rfl rfl rfl rfl
  recorded scan hdown := by
    have hstream : s.stream = s.sent ++ s.events ++ s.input := by rw [stream, htodo, List.append_nil]
    obtain ⟨held, hmem, hlookup⟩ := hrecorded scan (hstream ▸ hdown)
    exact ⟨held, hmem, trivial, hlookup⟩
  unfocused := hunfocused
  kept := hkept

/-- A handler that sends no scan code, with no fewer keys held. -/
theorem Tracked.quiet (h : Tracked s) (htodo : s.todo = []) {heldLocally : List (Nat × Int)} {focused : Bool}
    {todo : List InputEvent} (hheld : s.heldLocally ⊆ heldLocally) (hfocused : focused = false → s.focused = false)
    (hquiet : ∀ e ∈ todo, e.kind ≠ .scancode) :
    Tracked { s with heldLocally := heldLocally, focused := focused, todo := todo } := by
  refine h.handled htodo (fun scan hdown => ?_) (fun haway => h.unfocused (hfocused haway)) h.kept
  obtain ⟨held, hmem, -, hlookup⟩ := h.recorded scan (stillDown_quiet hquiet hdown)
  exact ⟨held, hheld hmem, hlookup⟩

theorem Tracked.keyPress (h : Tracked s) (htodo : s.todo = []) (physical : Nat) (event : QKeyEvent) :
    Tracked (RdpSession.keyPressEvent event { s with heldLocally := (physical, event.key) :: s.heldLocally }) := by
  have hheld := List.subset_cons_self (physical, event.key) s.heldLocally
  unfold RdpSession.keyPressEvent
  split
  · exact h.quiet htodo hheld id (by simp [htodo])
  · split
    · exact h.quiet htodo hheld id (by simp [unicodeEvent])
    · dsimp only
      split
      · exact h.quiet htodo hheld id (by simp [htodo])
      · rename_i hfocused _ _ _
        refine h.handled htodo (fun scan hdown => ?_) (fun haway => ?_) fun key scan hlookup => ?_
        · rcases down_concat.mp hdown with hpress | ⟨hdown, -⟩
          · obtain ⟨rfl, -⟩ := scancodeEvent_inj hpress
            exact ⟨(physical, event.key), List.mem_cons_self .., List.lookup_cons_self⟩
          · obtain ⟨held, hmem, -, hlookup⟩ := h.recorded scan hdown
            refine ⟨held, List.mem_cons_of_mem _ hmem, ?_⟩
            by_cases hkey : held.2 = event.key
            · rw [hkey, List.lookup_cons_self, h.kept _ _ hlookup, hkey]
            · rw [List.lookup_cons, beq_eq_false_iff_ne.mpr hkey]
              exact (lookup_filter_ne hkey _).trans hlookup
        · rw [haway] at hfocused
          exact absurd Bool.false_ne_true hfocused
        · rw [List.lookup_cons] at hlookup
          split at hlookup
          · rename_i hkey
            cases hlookup
            rw [eq_of_beq hkey]
          · rename_i hkey
            rw [lookup_filter_ne (by simpa using hkey)] at hlookup
            exact h.kept key scan hlookup

theorem Tracked.keyRelease (h : Tracked s) (htodo : s.todo = []) (physical : Nat) (event : QKeyEvent)
    (hfollows : s.Follows (.gui (.keyRelease physical event))) : Tracked (s.gui (.keyRelease physical event)) := by
  have hgui : s.gui (.keyRelease physical event) = RdpSession.keyReleaseEvent event
      { s with heldLocally := if event.autoRepeat then s.heldLocally else s.heldLocally.filter (·.1 ≠ physical) } := by
    rw [RdpSession.gui, if_neg (by simp [htodo])]
  rw [hgui, RdpSession.keyReleaseEvent]
  cases hrepeat : event.autoRepeat with
  | true =>
    rw [if_pos (by simp)]
    exact h.quiet htodo (List.Subset.refl _) id (by simp [htodo])
  | false =>
    simp only [Bool.false_eq_true, if_false, or_false]
    by_cases hfocused : s.focused = true
    · rw [if_neg (by simpa using hfocused)]
      have hrecorded := hfollows htodo hfocused hrepeat
      -- the keys that stay held, by their number
      have hstays {held : Nat × Int} (hmem : held ∈ s.heldLocally) (hother : held.1 ≠ physical) :
          held ∈ s.heldLocally.filter (·.1 ≠ physical) := List.mem_filter.mpr ⟨hmem, by simpa using hother⟩
      have haway : s.focused = false → s.heldKeys.filter (·.1 ≠ event.key) = [] := by simp [hfocused]
      cases hfound : s.heldKeys.lookup event.key with
      | none =>
        refine h.handled htodo (fun scan hdown => ?_) h.unfocused h.kept
        rw [htodo, List.append_nil] at hdown
        rcases hrecorded scan hdown with hown | ⟨held, hmem, hother, hlookup⟩
        · rw [hfound] at hown
          cases hown
        · exact ⟨held, hstays hmem hother, hlookup⟩
      | some released =>
        refine h.handled htodo (fun scan hdown => ?_) haway fun key scan hlookup => ?_
        · rcases down_concat.mp hdown with hpress | ⟨hdown, hne⟩
          · cases (scancodeEvent_inj hpress).2
          rcases hrecorded scan hdown with hown | ⟨held, hmem, hother, hlookup⟩
          · rw [hfound] at hown
            cases hown
            exact absurd rfl hne
          · -- its Qt key is another one, since its scan code is
            have hkey : held.2 ≠ event.key := by
              intro hsame
              rw [hsame, hfound] at hlookup
              cases hlookup
              exact hne rfl
            exact ⟨held, hstays hmem hother, (lookup_filter_ne hkey _).trans hlookup⟩
        · by_cases hkey : key = event.key
          · rw [hkey, lookup_filter_self] at hlookup
            cases hlookup
          · rw [lookup_filter_ne hkey] at hlookup
            exact h.kept key scan hlookup
    · rw [if_pos (by simpa using hfocused)]
      refine h.handled htodo (fun scan hdown => ?_) h.unfocused h.kept
      rw [htodo, List.append_nil] at hdown
      obtain ⟨held, -, -, hlookup⟩ := h.recorded scan hdown
      rw [h.unfocused (by simpa using hfocused)] at hlookup
      cases hlookup

theorem Tracked.focusOut (h : Tracked s) (htodo : s.todo = []) (order : List (Int × Scan)) :
    Tracked (RdpSession.releaseAllKeys order { s with focused := false }) := by
  refine h.handled htodo (fun scan hdown => ?_) (fun _ => rfl) (fun _ _ hlookup => by cases hlookup)
  exfalso
  rcases down_append.mp hdown with ⟨before, after, hsplit, -⟩ | ⟨hdown, hup⟩
  · -- only releases are pushed
    have hmem : scancodeEvent scan true ∈ before ++ scancodeEvent scan true :: after := by simp
    rw [← hsplit] at hmem
    obtain ⟨k, -, hk⟩ := List.mem_map.mp hmem
    cases (scancodeEvent_inj hk).2
  · obtain ⟨held, -, -, hlookup⟩ := h.recorded scan hdown
    refine hup (List.mem_map.mpr ⟨(held.2, scan), ?_, rfl⟩)
    split
    · rename_i hperm
      exact hperm.mem_iff.mpr (mem_of_lookup hlookup)
    · exact mem_of_lookup hlookup

theorem Tracked.gui (h : Tracked s) (event : GuiEvent) (hfollows : s.Follows (.gui event)) : Tracked (s.gui event) := by
  by_cases htodo : s.todo = []
  · cases event with
    | keyPress physical event =>
      rw [RdpSession.gui, if_neg (by simp [htodo])]
      exact h.keyPress htodo physical event
    | keyRelease physical event => exact h.keyRelease htodo physical event hfollows
    | focusIn =>
      rw [RdpSession.gui, if_neg (by simp [htodo])]
      exact h.quiet htodo (List.Subset.refl _) nofun (by simp [htodo])
    | focusOut order =>
      rw [RdpSession.gui, if_neg (by simp [htodo])]
      exact h.focusOut htodo order
    | mouse x y changed pressed =>
      rw [RdpSession.gui, if_neg (by simp [htodo])]
      exact h.quiet htodo (List.Subset.refl _) id (by unfold sendMouse; cases changed <;> simp)
    | wheel x y delta =>
      rw [RdpSession.gui, if_neg (by simp [htodo])]
      exact h.quiet htodo (List.Subset.refl _) id (by unfold sendWheel; split <;> simp)
    | clipboardChanged =>
      rw [RdpSession.gui, if_neg (by simp [htodo])]
      exact h.quiet htodo (List.Subset.refl _) id (by simp)
  · unfold RdpSession.gui
    rw [if_pos htodo]
    exact h

/-! ## The steps of the threads -/

/-- What is on its way stays what it was. -/
theorem Tracked.congr {s' : RdpSession} (h : Tracked s) (hpaced : Paced s') (hstream : s'.stream = s.stream)
    (hlocally : s'.heldLocally = s.heldLocally) (hfocused : s'.focused = s.focused) (hkeys : s'.heldKeys = s.heldKeys) :
    Tracked s' where
  paced := hpaced
  recorded scan hdown := by
    rw [hstream] at hdown
    rw [Recorded, hlocally, hkeys]
    exact h.recorded scan hdown
  unfocused := by
    rw [hfocused, hkeys]
    exact h.unfocused
  kept := by
    rw [hkeys]
    exact h.kept

theorem Tracked.push (h : Tracked s) (hfollows : s.Follows .push) : Tracked s.push := by
  have hpaced := h.paced.push
  unfold RdpSession.push at hpaced ⊢
  cases htodo : s.todo with
  | nil => exact h
  | cons e todo =>
    rw [htodo] at hpaced
    have hstream : s.stream = (s.sent ++ s.events ++ s.input) ++ e :: todo := by rw [stream, htodo]
    by_cases hfull : s.input.length > kMaxInput
    · simp only [if_pos hfull] at hpaced ⊢
      refine ⟨hpaced, fun scan hdown => h.recorded scan ?_, h.unfocused, h.kept⟩
      rw [hstream]
      by_cases hup : e = scancodeEvent scan false
      · -- its press was dropped too
        rcases down_append.mp hdown with hlater | ⟨hqueued, -⟩
        · exact (hlater.append_left [e]).append_left _
        · exact absurd (hfollows scan (by rw [htodo, List.head?_cons, hup]) hqueued) (Nat.not_le_of_lt hfull)
      · exact Down.insert hdown hup
    · simp only [if_neg hfull] at hpaced ⊢
      refine h.congr hpaced ?_ rfl rfl rfl
      rw [hstream]
      simp [stream]

theorem Tracked.setEvent (h : Tracked s) : Tracked s.setEvent := by
  have hpaced := h.paced.setEvent
  unfold RdpSession.setEvent at hpaced ⊢
  split
  · exact h
  · rw [if_neg ‹_›] at hpaced
    exact h.congr hpaced rfl rfl rfl rfl

theorem Tracked.runThread (h : Tracked s) : Tracked s.runThread := by
  refine h.congr h.paced.runThread ?_ ?_ ?_ ?_
  · unfold RdpSession.runThread
    split
    · rfl
    · rfl
    · rfl
    · rfl
    · have hevents := h.paced.idle (by simp [*])
      simp [stream, hevents]
    · split
      · rfl
      · rename_i hevents
        simp [stream, hevents]
  all_goals
    unfold RdpSession.runThread
    split <;> first | rfl | (split <;> rfl)

theorem Tracked.step (h : Tracked s) (i : Step) (hfollows : s.Follows i) : Tracked (s.step i) := by
  cases i with
  | gui event => exact h.gui event hfollows
  | push => exact h.push hfollows
  | setEvent => exact h.setEvent
  | runThread => exact h.runThread

/-- Where every step is one that can be followed, input is delivered. -/
theorem input_delivered (heldLocally : List (Nat × Int)) (focused : Bool) (steps : List Step)
    (h : Along step Follows steps (.bind heldLocally focused)) :
    Along step (fun s i => Delivers (s.step i)) steps (.bind heldLocally focused) :=
  Along.imp (fun _ i hs hf => Tracked.step hs i hf) (fun _ i hs hf => (Tracked.step hs i hf).delivers)
    (tracked_bind heldLocally focused) h

/-- In every run input is sent in the order it was pushed in, each at most once, and the thread does not sleep over it. -/
theorem input_in_order (heldLocally : List (Nat × Int)) (focused : Bool) (steps : List Step) :
    Paced (run step steps (.bind heldLocally focused)) :=
  run_keeps (I := Paced) (fun _ i hs => Paced.step hs i) steps (tracked_bind heldLocally focused).paced

/-! ## A key that is typed, and keys that stay down -/

def controlKey : QKeyEvent := ⟨0x01000021, [], true, false⟩

def control : Scan := ⟨0x1d, false⟩

theorem control_delivered : Along step (fun s i => Delivers (s.step i))
    [.gui (.keyPress 37 controlKey), .push, .setEvent, .gui (.keyRelease 37 controlKey), .push] (.bind [] true) := by
  apply input_delivered
  refine ⟨trivial, fun _ _ _ => Nat.zero_le _, trivial, fun _ _ _ scan hdown => .inl ?_, fun _ _ _ => by decide, trivial⟩
  have hone : StillDown ([] ++ [scancodeEvent control true]) scan := hdown
  rcases down_concat.mp hone with hpress | ⟨hnone, -⟩
  · rw [← (scancodeEvent_inj hpress).1]
    decide
  · exact absurd hnone not_down_nil

/-- The mouse moves again and again. -/
def flood (n : Nat) : List Step := (List.replicate n [Step.gui (.mouse 0 0 .none false), .push]).flatten

def move : InputEvent := ⟨.mouse, PTR_FLAGS_MOVE, 0, 0, 0⟩

theorem run_flood (n : Nat) (h : n ≤ kMaxInput + 1) : run step (flood n) (.bind [] true) =
    ⟨[], true, [], [], List.replicate n move, false, n, .connecting, [], [], List.replicate n move⟩ := by
  induction n with
  | zero => rfl
  | succ n ih =>
    have hsnoc : flood (n + 1) = flood n ++ [.gui (.mouse 0 0 .none false), .push] := by
      rw [flood, List.replicate_succ', List.flatten_append]
      simp [flood]
    have hroom : ¬ (List.replicate n move).length > kMaxInput := by
      rw [List.length_replicate]
      omega
    rw [hsnoc, run_append, ih (by omega), List.replicate_succ']
    simp only [run, step, gui, sendMouse, push, ne_eq, not_true, if_false, if_neg hroom]
    rfl

theorem run_drain (events sent : List InputEvent) {a : List (Nat × Int)} {b : Bool} {c : List (Int × Scan)} {d e p : List InputEvent}
    {w : Bool} {n : Nat} : run step (List.replicate events.length .runThread) ⟨a, b, c, d, e, w, n, .draining, events, sent, p⟩ =
      ⟨a, b, c, d, e, w, n, .draining, [], sent ++ events, p⟩ := by
  induction events generalizing sent with
  | nil => rw [List.append_nil]; rfl
  | cons i events ih =>
    refine (ih (sent ++ [i])).trans ?_
    rw [List.append_assoc, List.singleton_append]

/-- The release finds 4097 events in the queue, the last of them its press. -/
def lostRelease : List Step :=
  flood 4096 ++ [.gui (.keyPress 37 controlKey), .push, .gui (.keyRelease 37 controlKey), .push] ++
    List.replicate 5 .runThread ++ List.replicate 4097 .runThread

/-- Tab goes down under Shift and up without. -/
def tabUnderShift : List Step :=
  [.gui (.keyPress 50 ⟨0x01000020, [], false, false⟩), .push, .gui (.keyPress 23 ⟨0x01000002, [9], false, false⟩), .push,
    .gui (.keyRelease 50 ⟨0x01000020, [], false, false⟩), .push, .gui (.keyRelease 23 ⟨0x01000001, [9], false, false⟩), .push] ++
    List.replicate 8 .runThread

theorem run_fullQueue {moves : List InputEvent} (h : moves.length = kMaxInput) (n : Nat) :
    run step ([.gui (.keyPress 37 controlKey), .push, .gui (.keyRelease 37 controlKey), .push] ++ List.replicate 5 .runThread)
      ⟨[], true, [], [], moves, false, n, .connecting, [], [], moves⟩ =
    ⟨[], true, [], [], [], false, n + 1, .draining, moves ++ [scancodeEvent control true], [],
      moves ++ [scancodeEvent control true] ++ [scancodeEvent control false]⟩ := by
  have hroom : ¬ moves.length > kMaxInput := Nat.not_lt_of_le (Nat.le_of_eq h)
  have hfull : (moves ++ [scancodeEvent control true]).length > kMaxInput := by
    rw [List.length_append, h]
    exact Nat.lt_succ_self _
  have hpress : ((⟨[], true, [], [], moves, false, n, .connecting, [], [], moves⟩ : RdpSession).gui (.keyPress 37 controlKey)).push =
      ⟨[(37, 0x01000021)], true, [(0x01000021, control)], [], moves ++ [scancodeEvent control true], false, n + 1, .connecting, [], [],
        moves ++ [scancodeEvent control true]⟩ := if_neg hroom
  have hrelease : ((⟨[(37, 0x01000021)], true, [(0x01000021, control)], [], moves ++ [scancodeEvent control true], false, n + 1,
      .connecting, [], [], moves ++ [scancodeEvent control true]⟩ : RdpSession).gui (.keyRelease 37 controlKey)).push =
      ⟨[], true, [], [], moves ++ [scancodeEvent control true], false, n + 1, .connecting, [], [],
        moves ++ [scancodeEvent control true] ++ [scancodeEvent control false]⟩ := if_pos hfull
  rw [run_append]
  have htyped : run step [.gui (.keyPress 37 controlKey), .push, .gui (.keyRelease 37 controlKey), .push]
      ⟨[], true, [], [], moves, false, n, .connecting, [], [], moves⟩ =
      ((((⟨[], true, [], [], moves, false, n, .connecting, [], [], moves⟩ : RdpSession).gui (.keyPress 37 controlKey)).push).gui
        (.keyRelease 37 controlKey)).push := rfl
  rw [htyped, hpress, hrelease]
  rfl

theorem run_lostRelease : run step lostRelease (.bind [] true) =
    ⟨[], true, [], [], [], false, 4097, .draining, [], List.replicate 4096 move ++ [scancodeEvent control true],
      List.replicate 4096 move ++ [scancodeEvent control true] ++ [scancodeEvent control false]⟩ := by
  have hlength : (List.replicate 4096 move ++ [scancodeEvent control true]).length = 4097 := by
    rw [List.length_append, List.length_replicate, List.length_singleton]
  have hdrained := run_drain (List.replicate 4096 move ++ [scancodeEvent control true]) []
    (a := []) (b := true) (c := []) (d := []) (e := []) (w := false) (n := 4097)
    (p := List.replicate 4096 move ++ [scancodeEvent control true] ++ [scancodeEvent control false])
  rw [hlength] at hdrained
  rw [lostRelease, List.append_assoc (flood 4096), run_append, run_append, run_flood 4096 (by decide),
    run_fullQueue (by rw [List.length_replicate]; rfl) 4096]
  exact hdrained

/-- Control stays down after its release was dropped, and Tab after it went up as another key. -/
theorem keys_stay_down :
    ¬ Delivers (run step lostRelease (.bind [] true)) ∧ ¬ Delivers (run step tabUnderShift (.bind [] true)) := by
  constructor
  · rw [run_lostRelease]
    exact fun h => h.released rfl rfl rfl (.inl rfl) control ⟨List.replicate 4096 move, [], rfl, List.not_mem_nil⟩
  · intro h
    exact h.released (by decide) (by decide) (by decide) (.inl (by decide)) ⟨0x0f, false⟩
      ⟨[scancodeEvent ⟨0x2a, false⟩ true], [scancodeEvent ⟨0x2a, false⟩ false], by decide, by decide⟩

end RdpSession

end LvdTerm.Rdp
