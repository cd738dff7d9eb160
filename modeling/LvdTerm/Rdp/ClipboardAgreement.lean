import LvdTerm.Rdp.Clipboard

/-!
# RDP: both machines paste the last copy

The steps that only process what is queued do not change what is pasted in the end (`outcome`), and a remote copy always gets
through. A local copy does as long as the echo suppression lets it: the text must differ from the last one that came from the
remote machine and from the last one handed to the client, or the remote machine must have it already (`Reaches`).
-/
namespace LvdTerm.Rdp.RdpClipboard

open Lib.LineEnds Lib.Runs

variable {fromLocal8Bit : List UInt8 → Text}

/-! ## Once the queued events have been processed -/

/-- Nothing but what is queued is left to do. -/
def Step.Queued : Step → Prop
  | .remoteClipboardText | .swapInput | .handleEvent => True
  | _ => False

/-- Events are handled one after the other, and what the widget was sent as well. -/
def queued (s : RdpClipboard) : List Step :=
  List.replicate s.events.length .handleEvent ++ .swapInput :: List.replicate s.input.length .handleEvent ++
    List.replicate s.signals.length .remoteClipboardText

def processed (fromLocal8Bit : List UInt8 → Text) (s : RdpClipboard) : RdpClipboard := run (step fromLocal8Bit) s.queued s

/-- What both machines paste, and what the client has announced. -/
structure Agrees (fromLocal8Bit : List UInt8 → Text) (s : RdpClipboard) : Prop where
  remote : ∀ t, s.lastCopy = .locally t → t ≠ [] → ∃ r, s.remotePaste fromLocal8Bit = some (r ++ [0]) ∧ InPairs CR LF t r
  here : ∀ t, s.lastCopy = .remotely t → t ≠ [] → s.clipboard = collapse CR LF t
  noEcho : ∀ t ∈ s.announced, t ∈ s.copied

/-- An announcement is on its way to the session thread. -/
def Announcing (s : RdpClipboard) : Prop := ∃ e ∈ s.events ++ s.input, e.kind = .clipboardChanged

instance (s : RdpClipboard) : Decidable s.Announcing := inferInstanceAs (Decidable (∃ e ∈ s.events ++ s.input, e.kind = .clipboardChanged))

def finalOwner (s : RdpClipboard) : Owner := if s.Announcing ∧ s.localClipboard ≠ [] then .client else s.owner

def finalClipboard (s : RdpClipboard) : Text := (s.signals.filter (· ≠ [])).getLastD s.clipboard

/-- The remote machine has the text on its clipboard, or has been offered one that differs in its line ends only. -/
def Has (fromLocal8Bit : List UInt8 → Text) (s : RdpClipboard) (t : Text) : Prop :=
  match s.finalOwner with
  | .client => collapse CR LF s.localClipboard = collapse CR LF t
  | .server (.unicode data) => data = expand CR LF (collapse CR LF t) ++ [0]
  | .server (.text data) => fromLocal8Bit data = expand CR LF (collapse CR LF t) ++ [0]
  | .server .other => False

/-- The text is news to the widget and to the client, and the queue has room or an announcement is not needed; or the remote
machine has the text as it is. -/
def Reaches (fromLocal8Bit : List UInt8 → Text) (s : RdpClipboard) (t : Text) : Prop :=
  t ≠ s.fromRemote ∧ t ≠ s.localClipboard ∧ (s.input.length ≤ RdpSession.kMaxInput ∨ s.Announcing ∨ s.owner = .client) ∨
    s.Has fromLocal8Bit t

/-- Every copy of a text made on this machine reaches the other. -/
def Heard (fromLocal8Bit : List UInt8 → Text) (s : RdpClipboard) (i : Step) : Prop :=
  ∀ t, i = .copyLocally t → t ≠ [] → s.Reaches fromLocal8Bit t

/-! ## What every step does -/

@[simp] theorem announcing_iff (s : RdpClipboard) :
    s.Announcing ↔ (∃ e ∈ s.events, e.kind = .clipboardChanged) ∨ ∃ e ∈ s.input, e.kind = .clipboardChanged := by
  simp [Announcing, or_and_right, exists_or]

/-- What the queues come to. -/
def outcome (s : RdpClipboard) : Owner × Text × Text × LastCopy := (s.finalOwner, s.finalClipboard, s.localClipboard, s.lastCopy)

theorem has_of_outcome {s s' : RdpClipboard} (h : s'.outcome = s.outcome) (t : Text) :
    s'.Has fromLocal8Bit t ↔ s.Has fromLocal8Bit t := by
  simp only [outcome, Prod.mk.injEq] at h
  simp only [Has, h.1, h.2.2.1]

/-- The text that came from the remote machine is not taken for a copy. -/
theorem remoteClipboardText_cons {s : RdpClipboard} {text : Text} {signals : List Text} (h : s.signals = text :: signals) :
    s.remoteClipboardText = if text = [] then { s with signals := signals }
      else { s with signals := signals, fromRemote := text, clipboard := text } := by
  simp [remoteClipboardText, h, dataChanged]

theorem handleEvent_outcome (s : RdpClipboard) : s.handleEvent.outcome = s.outcome := by
  cases hevents : s.events with
  | nil => simp [handleEvent, hevents]
  | cons e events =>
    by_cases he : e.kind = .clipboardChanged
    · by_cases hlocal : s.localClipboard = []
      · simp [handleEvent, hevents, he, sendClipboardFormats, hlocal, outcome, finalOwner, finalClipboard]
      · simp [handleEvent, hevents, he, sendClipboardFormats, hlocal, outcome, finalOwner, finalClipboard]
    · simp [handleEvent, hevents, he, outcome, finalOwner, finalClipboard]

theorem swapInput_outcome (s : RdpClipboard) : s.swapInput.outcome = s.outcome := by
  by_cases hevents : s.events = []
  · simp [swapInput, hevents, outcome, finalOwner, finalClipboard]
  · simp [swapInput, hevents]

theorem remoteClipboardText_outcome (s : RdpClipboard) : s.remoteClipboardText.outcome = s.outcome := by
  cases hsignals : s.signals with
  | nil => simp [remoteClipboardText, hsignals]
  | cons text signals =>
    rw [remoteClipboardText_cons hsignals]
    by_cases htext : text = []
    · simp [htext, hsignals, outcome, finalOwner, finalClipboard]
    · rw [if_neg htext]
      have hlast : (s.signals.filter (· ≠ [])).getLastD s.clipboard = (signals.filter (· ≠ [])).getLastD text := by
        rw [hsignals, List.filter_cons_of_pos (by simpa using htext), List.getLastD_cons]
      simp only [outcome, finalOwner, announcing_iff, finalClipboard, hlast]

theorem queued_step_outcome {i : Step} (h : i.Queued) (s : RdpClipboard) : (step fromLocal8Bit s i).outcome = s.outcome := by
  cases i with
  | remoteClipboardText => exact s.remoteClipboardText_outcome
  | swapInput => exact s.swapInput_outcome
  | handleEvent => exact s.handleEvent_outcome
  | copyLocally | copyRemotely | input => exact h.elim

theorem push_input_outcome {e : InputEvent} (he : e.kind ≠ .clipboardChanged) (s : RdpClipboard) :
    (s.push e).outcome = s.outcome := by
  by_cases hfull : s.input.length > RdpSession.kMaxInput
  · simp [push, hfull]
  · simp [push, hfull, outcome, finalOwner, finalClipboard, he]

theorem queued_run_outcome {is : List Step} (h : ∀ i ∈ is, i.Queued) (s : RdpClipboard) :
    (run (step fromLocal8Bit) is s).outcome = s.outcome := by
  induction is generalizing s with
  | nil => rfl
  | cons i is ih =>
    have hi := h i List.mem_cons_self
    rw [run, ih fun j hj => h j (List.mem_cons_of_mem i hj), queued_step_outcome hi]

theorem queued_queued (s : RdpClipboard) : ∀ i ∈ s.queued, i.Queued := by
  intro i hi
  simp only [queued, List.mem_append, List.mem_cons, List.mem_replicate] at hi
  rcases hi with (⟨-, rfl⟩ | rfl | ⟨-, rfl⟩) | ⟨-, rfl⟩
  all_goals trivial

theorem processed_outcome (fromLocal8Bit : List UInt8 → Text) (s : RdpClipboard) : (s.processed fromLocal8Bit).outcome = s.outcome :=
  queued_run_outcome s.queued_queued s

/-! ## The queues are empty in the end -/

@[simp] theorem sendClipboardFormats_input (s : RdpClipboard) : s.sendClipboardFormats.input = s.input := by
  by_cases h : s.localClipboard = [] <;> simp [sendClipboardFormats, h]

@[simp] theorem sendClipboardFormats_events (s : RdpClipboard) : s.sendClipboardFormats.events = s.events := by
  by_cases h : s.localClipboard = [] <;> simp [sendClipboardFormats, h]

@[simp] theorem sendClipboardFormats_signals (s : RdpClipboard) : s.sendClipboardFormats.signals = s.signals := by
  by_cases h : s.localClipboard = [] <;> simp [sendClipboardFormats, h]

@[simp] theorem handleEvent_events (s : RdpClipboard) : s.handleEvent.events = s.events.tail := by
  cases h : s.events with
  | nil => simp [handleEvent, h]
  | cons e events => by_cases he : e.kind = .clipboardChanged <;> simp [handleEvent, h, he]

@[simp] theorem handleEvent_input (s : RdpClipboard) : s.handleEvent.input = s.input := by
  cases h : s.events with
  | nil => simp [handleEvent, h]
  | cons e events => by_cases he : e.kind = .clipboardChanged <;> simp [handleEvent, h, he]

@[simp] theorem handleEvent_signals (s : RdpClipboard) : s.handleEvent.signals = s.signals := by
  cases h : s.events with
  | nil => simp [handleEvent, h]
  | cons e events => by_cases he : e.kind = .clipboardChanged <;> simp [handleEvent, h, he]

@[simp] theorem remoteClipboardText_queues (s : RdpClipboard) : s.remoteClipboardText.events = s.events ∧
    s.remoteClipboardText.input = s.input ∧ s.remoteClipboardText.signals = s.signals.tail := by
  cases h : s.signals with
  | nil => simp [remoteClipboardText, h]
  | cons text signals => by_cases htext : text = [] <;> simp [remoteClipboardText_cons h, htext]

theorem handleEvents (fromLocal8Bit : List UInt8 → Text) (s : RdpClipboard) (n : Nat) :
    let s' := run (step fromLocal8Bit) (List.replicate n .handleEvent) s
    s'.events = s.events.drop n ∧ s'.input = s.input ∧ s'.signals = s.signals := by
  induction n generalizing s with
  | zero => simp [run]
  | succ n ih => simpa [List.replicate_succ, run, step, List.drop_one] using ih s.handleEvent

theorem remoteClipboardTexts (fromLocal8Bit : List UInt8 → Text) (s : RdpClipboard) (n : Nat) :
    let s' := run (step fromLocal8Bit) (List.replicate n .remoteClipboardText) s
    s'.events = s.events ∧ s'.input = s.input ∧ s'.signals = s.signals.drop n := by
  induction n generalizing s with
  | zero => simp [run]
  | succ n ih => simpa [List.replicate_succ, run, step] using ih s.remoteClipboardText

theorem processed_queues (fromLocal8Bit : List UInt8 → Text) (s : RdpClipboard) : (s.processed fromLocal8Bit).events = [] ∧
    (s.processed fromLocal8Bit).input = [] ∧ (s.processed fromLocal8Bit).signals = [] := by
  simp only [processed, queued, run_append, run]
  obtain ⟨hevents, hinput, hsignals⟩ := handleEvents fromLocal8Bit s s.events.length
  generalize run (step fromLocal8Bit) (List.replicate s.events.length .handleEvent) s = handled at *
  have hswap : step fromLocal8Bit handled .swapInput = { handled with events := handled.input, input := [] } := by
    simp [step, swapInput, hevents]
  rw [hswap]
  obtain ⟨hevents', hinput', hsignals'⟩ :=
    handleEvents fromLocal8Bit { handled with events := handled.input, input := [] } s.input.length
  generalize run (step fromLocal8Bit) (List.replicate s.input.length .handleEvent)
    { handled with events := handled.input, input := [] } = drained at *
  have hshown := remoteClipboardTexts fromLocal8Bit drained s.signals.length
  simp_all

/-- What is pasted then can be told before. -/
theorem processed_eq (fromLocal8Bit : List UInt8 → Text) (s : RdpClipboard) : (s.processed fromLocal8Bit).owner = s.finalOwner ∧
    (s.processed fromLocal8Bit).clipboard = s.finalClipboard ∧
    (s.processed fromLocal8Bit).localClipboard = s.localClipboard ∧ (s.processed fromLocal8Bit).lastCopy = s.lastCopy := by
  obtain ⟨hevents, hinput, hsignals⟩ := processed_queues fromLocal8Bit s
  have hsame := processed_outcome fromLocal8Bit s
  simpa [outcome, finalOwner, finalClipboard, hevents, hinput, hsignals] using hsame

/-! ## What every run keeps -/

/-- Only what was copied here is handed to the client, and announced. -/
def Own (s : RdpClipboard) : Prop := s.localClipboard ∈ s.copied ∧ ∀ t ∈ s.announced, t ∈ s.copied

/-- A text that was last copied on the remote machine gets here. -/
def Arrives (s : RdpClipboard) : Prop := ∀ t, s.lastCopy = .remotely t → t ≠ [] → s.finalClipboard = collapse CR LF t

/-- A text that was last copied here gets to the remote machine. -/
def Arrived (fromLocal8Bit : List UInt8 → Text) (s : RdpClipboard) : Prop :=
  ∀ t, s.lastCopy = .locally t → t ≠ [] → s.Has fromLocal8Bit t

theorem Own.sendClipboardFormats {s : RdpClipboard} (h : s.Own) : s.sendClipboardFormats.Own := by
  by_cases hlocal : s.localClipboard = []
  · simpa [RdpClipboard.sendClipboardFormats, hlocal] using h
  · simp only [RdpClipboard.sendClipboardFormats, hlocal, if_false]
    refine ⟨h.1, fun t ht => ?_⟩
    rcases List.mem_append.mp ht with ht | ht
    · exact h.2 t ht
    · rw [List.mem_singleton.mp ht]
      exact h.1

theorem push_own {s : RdpClipboard} (e : InputEvent) : (s.push e).Own ↔ s.Own := by
  by_cases hfull : s.input.length > RdpSession.kMaxInput <;> simp [push, hfull, Own]

theorem Own.copyLocally {s : RdpClipboard} (h : s.Own) (text : Text) : (s.copyLocally text).Own := by
  have hkept : ∀ t ∈ s.announced, t ∈ text :: s.copied := fun t ht => List.mem_cons_of_mem text (h.2 t ht)
  have hlocal : s.localClipboard ∈ text :: s.copied := List.mem_cons_of_mem text h.1
  by_cases hremote : text = s.fromRemote
  · simpa [RdpClipboard.copyLocally, dataChanged, hremote, Own] using And.intro hlocal hkept
  · by_cases hsame : text = s.localClipboard
    · simpa [RdpClipboard.copyLocally, dataChanged, hremote, setLocalClipboardText, hsame, Own] using hkept
    · simp only [RdpClipboard.copyLocally, dataChanged, hremote, setLocalClipboardText, hsame, if_true, if_false, ne_eq,
        not_false_eq_true, push_own]
      exact ⟨List.mem_cons_self, hkept⟩

theorem Own.step {s : RdpClipboard} (h : s.Own) (i : Step) : (step fromLocal8Bit s i).Own := by
  cases i with
  | copyLocally text => exact h.copyLocally text
  | copyRemotely offer => exact h
  | input e => exact (push_own e.1).mpr h
  | remoteClipboardText =>
    show s.remoteClipboardText.Own
    cases hsignals : s.signals with
    | nil => simpa [RdpClipboard.remoteClipboardText, hsignals] using h
    | cons text signals =>
      rw [remoteClipboardText_cons hsignals]
      split <;> exact h
  | swapInput =>
    show s.swapInput.Own
    simp only [RdpClipboard.swapInput]
    split <;> exact h
  | handleEvent =>
    show s.handleEvent.Own
    cases hevents : s.events with
    | nil => simpa [RdpClipboard.handleEvent, hevents] using h
    | cons e events =>
      have hrest : Own { s with events := events } := h
      by_cases he : e.kind = .clipboardChanged
      · simpa [RdpClipboard.handleEvent, hevents, he] using hrest.sendClipboardFormats
      · simpa [RdpClipboard.handleEvent, hevents, he] using hrest

theorem copyLocally_lastCopy (s : RdpClipboard) (text : Text) : (s.copyLocally text).lastCopy = .locally text := by
  simp only [copyLocally, dataChanged, setLocalClipboardText, push]
  split <;> [skip; rfl]
  split <;> [rfl; skip]
  split <;> rfl

theorem copyRemotely_arrives (s : RdpClipboard) (offer : Offer) : (s.copyRemotely fromLocal8Bit offer).Arrives := by
  intro t hlast ht
  cases htext : textOf fromLocal8Bit offer with
  | none => simp [copyRemotely, htext] at hlast
  | some text =>
    have hsame : text = t := by simpa [copyRemotely, htext] using hlast
    subst hsame
    have hne : collapse CR LF text ≠ [] := fun hnil => ht (collapse_eq_nil.mp hnil)
    simp [finalClipboard, copyRemotely, clipServerFormatDataResponse, htext, hne]

theorem Arrives.step {s : RdpClipboard} (h : s.Arrives) (i : Step) : (step fromLocal8Bit s i).Arrives := by
  have hsame : ∀ s' : RdpClipboard, s'.outcome = s.outcome → s'.Arrives := by
    intro s' heq
    simp only [outcome, Prod.mk.injEq] at heq
    simpa only [Arrives, heq.2.1, heq.2.2.2] using h
  cases i with
  | copyLocally text =>
    intro t hlast
    exact absurd ((copyLocally_lastCopy s text).symm.trans hlast) (by simp)
  | copyRemotely offer => exact s.copyRemotely_arrives offer
  | input e => exact hsame _ (s.push_input_outcome e.2)
  | remoteClipboardText => exact hsame _ s.remoteClipboardText_outcome
  | swapInput => exact hsame _ s.swapInput_outcome
  | handleEvent => exact hsame _ s.handleEvent_outcome

/-- Whether a copy made here gets through is decided when it is made. -/
theorem copyLocally_has (s : RdpClipboard) {t : Text} (ht : t ≠ []) :
    (s.copyLocally t).Has fromLocal8Bit t ↔ s.Reaches fromLocal8Bit t := by
  by_cases hremote : t = s.fromRemote
  · simp [copyLocally, dataChanged, Reaches, hremote, Has, finalOwner]
  · by_cases hlocal : t = s.localClipboard
    · simp [copyLocally, dataChanged, setLocalClipboardText, Reaches, hlocal, Has, finalOwner]
    · by_cases hfull : s.input.length > RdpSession.kMaxInput
      · have hroom : ¬ s.input.length ≤ RdpSession.kMaxInput := Nat.not_le.mpr hfull
        by_cases hann : s.Announcing
        · have hthere := (announcing_iff s).mp hann
          simp [copyLocally, dataChanged, setLocalClipboardText, push, Reaches, hremote, hlocal, hfull, Has, finalOwner, ht, hthere]
        · have hthere := mt (announcing_iff s).mpr hann
          cases howner : s.owner with
          | client =>
            simp [copyLocally, dataChanged, setLocalClipboardText, push, Reaches, hremote, hlocal, hfull, Has, finalOwner, hthere,
              howner]
          | server offer =>
            simp [copyLocally, dataChanged, setLocalClipboardText, push, Reaches, hremote, hlocal, hfull, Has, finalOwner, hthere,
              howner, hroom]
            cases offer <;> simp
      · simp [copyLocally, dataChanged, setLocalClipboardText, push, Reaches, hremote, hlocal, hfull, Has, finalOwner, ht,
          Nat.not_lt.mp hfull]

/-- A step keeps what has arrived if and only if the copy it makes, if any, is heard of. -/
theorem arrived_step_iff {s : RdpClipboard} (h : s.Arrived fromLocal8Bit) (i : Step) :
    (step fromLocal8Bit s i).Arrived fromLocal8Bit ↔ s.Heard fromLocal8Bit i := by
  have hsame : ∀ s' : RdpClipboard, s'.outcome = s.outcome → s'.Arrived fromLocal8Bit := by
    intro s' heq t hlast ht
    have hlast' : s.lastCopy = .locally t := (congrArg (·.2.2.2) heq).symm.trans hlast
    exact (has_of_outcome heq t).mpr (h t hlast' ht)
  cases i with
  | copyLocally text =>
    constructor
    · rintro harrived t ⟨⟩ ht
      exact (s.copyLocally_has ht).mp (harrived text (s.copyLocally_lastCopy text) ht)
    · intro hheard t hlast ht
      have htext : text = t := by simpa [copyLocally_lastCopy, step] using hlast
      subst htext
      exact (s.copyLocally_has ht).mpr (hheard text rfl ht)
  | copyRemotely offer =>
    refine iff_of_true (fun t hlast => ?_) (by simp [Heard])
    cases htext : textOf fromLocal8Bit offer <;> simp [step, copyRemotely, htext] at hlast
  | input e => exact iff_of_true (hsame _ (s.push_input_outcome e.2)) (by simp [Heard])
  | remoteClipboardText => exact iff_of_true (hsame _ s.remoteClipboardText_outcome) (by simp [Heard])
  | swapInput => exact iff_of_true (hsame _ s.swapInput_outcome) (by simp [Heard])
  | handleEvent => exact iff_of_true (hsame _ s.handleEvent_outcome) (by simp [Heard])

/-! ## Agreement -/

theorem cr_ne_lf : CR ≠ LF := by decide

theorem remotePaste_processed (fromLocal8Bit : List UInt8 → Text) (s : RdpClipboard) (t : Text) :
    (∃ r, (s.processed fromLocal8Bit).remotePaste fromLocal8Bit = some (r ++ [0]) ∧ InPairs CR LF t r) ↔ s.Has fromLocal8Bit t := by
  obtain ⟨howner, -, hlocal, -⟩ := processed_eq fromLocal8Bit s
  have hinj : ∀ x y : Text, expand CR LF x = expand CR LF y ↔ x = y := by
    intro x y
    refine ⟨fun h => ?_, congrArg _⟩
    rw [← collapse_expand cr_ne_lf x, h, collapse_expand cr_ne_lf]
  simp only [inPairs_iff cr_ne_lf, exists_eq_right, Has, remotePaste, howner]
  cases s.finalOwner with
  | client => simp [clipServerFormatDataRequest, hlocal, hinj]
  | server offer => cases offer <;> simp

theorem processed_own {s : RdpClipboard} (h : s.Own) : (s.processed fromLocal8Bit).Own :=
  run_keeps (fun _ i hi => hi.step i) s.queued h

theorem agrees_iff_arrived {s : RdpClipboard} (hown : s.Own) (harrives : s.Arrives) :
    (s.processed fromLocal8Bit).Agrees fromLocal8Bit ↔ s.Arrived fromLocal8Bit := by
  obtain ⟨-, hclipboard, -, hlast⟩ := processed_eq fromLocal8Bit s
  constructor
  · intro hagrees t hlocally ht
    exact (remotePaste_processed fromLocal8Bit s t).mp (hagrees.remote t (hlast.trans hlocally) ht)
  · intro harrived
    refine ⟨fun t hlocally ht => ?_, fun t hremotely ht => ?_, (processed_own hown).2⟩
    · exact (remotePaste_processed fromLocal8Bit s t).mpr (harrived t (hlast.symm.trans hlocally) ht)
    · exact hclipboard.trans (harrives t (hlast.symm.trans hremotely) ht)

/-- Whatever the clipboards held when the channel got ready, both machines agree throughout if and only if every copy made here is
heard of on the other side. -/
theorem clipboards_agree_iff (fromLocal8Bit : List UInt8 → Text) (clipboard fromRemote localClipboard : Text)
    (input events : List InputEvent) (offer : Offer) (steps : List Step) :
    let ready := monitorReady clipboard fromRemote localClipboard input events offer
    (∀ done, done <+: steps → ((run (step fromLocal8Bit) done ready).processed fromLocal8Bit).Agrees fromLocal8Bit) ↔
      Along (step fromLocal8Bit) (Heard fromLocal8Bit) steps ready := by
  intro ready
  have hready : ready.lastCopy = .other := by
    by_cases h : localClipboard = [] <;> simp [ready, monitorReady, sendClipboardFormats, h]
  have hown : ready.Own := Own.sendClipboardFormats (by simp [Own])
  have harrives : ready.Arrives := by simp [Arrives, hready]
  have harrived : ready.Arrived fromLocal8Bit := by simp [Arrived, hready]
  have hagrees : ∀ done, ((run (step fromLocal8Bit) done ready).processed fromLocal8Bit).Agrees fromLocal8Bit ↔
      (run (step fromLocal8Bit) done ready).Arrived fromLocal8Bit := fun done =>
    agrees_iff_arrived (run_keeps (fun _ i hi => hi.step i) done hown) (run_keeps (fun _ i hi => hi.step i) done harrives)
  simp only [hagrees]
  exact (along_iff_always (I := Arrived fromLocal8Bit) (fun _ i hi => arrived_step_iff hi i) steps harrived).symm

/-- The text that was copied here is copied again after the remote machine has copied another one; and the text that came from the
remote machine is copied here after another one was. -/
theorem copied_again_is_lost :
    let latin1 := List.map UInt8.toUInt16
    let ready := monitorReady [] [] [] [] [] .other
    ¬ ((run (step latin1) [.copyLocally [116], .swapInput, .handleEvent, .copyRemotely (.unicode [117, 0]), .copyLocally [116]]
        ready).processed latin1).Agrees latin1 ∧
    ¬ ((run (step latin1) [.copyRemotely (.unicode [117, 0]), .remoteClipboardText, .copyLocally [116], .copyLocally [117]]
        ready).processed latin1).Agrees latin1 := by
  constructor
  · intro hagrees
    obtain ⟨r, hpaste, hr⟩ := hagrees.remote [116] rfl (by decide)
    rw [(inPairs_iff cr_ne_lf).mp hr] at hpaste
    exact absurd hpaste (by decide)
  · intro hagrees
    obtain ⟨r, hpaste, hr⟩ := hagrees.remote [117] rfl (by decide)
    rw [(inPairs_iff cr_ne_lf).mp hr] at hpaste
    exact absurd hpaste (by decide)

end LvdTerm.Rdp.RdpClipboard
