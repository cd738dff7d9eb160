import LvdTerm.Sftp.FileEditor

/-!
# MainWindow: quitting

`closeEvent` asks the editors of its own window. That of the first window then closes the others, and does not look at what they
answer. So quitting is all or nothing if and only if no refusal comes from another window: `quits_whole_iff`. What is saved of the
session is left out.
-/
namespace LvdTerm.App.Quitting

open LvdTerm.Sftp (SftpFileEditor WriteReply CloseResult)

/-! ## One editor -/

/-- An answer to the question, and how an upload that is started ends. -/
inductive Reply where
  | save (reply : WriteReply) (uploaded : Bool)
  | discard
  | cancel

def Reply.answer : Reply → Sftp.Answer
  | .save reply _ => .save reply
  | .discard => .discard
  | .cancel => .cancel

def Reply.uploaded : Reply → Bool
  | .save _ uploaded => uploaded
  | _ => false

/-- `saveFinished` ends the loop in `saveAndWait`. -/
def saveFinished (uploaded : Bool) (e : SftpFileEditor) : SftpFileEditor :=
  if uploaded then (e.onOperationSucceeded "upload" e.remotePath).1
  else (e.onOperationFailed "upload" e.remotePath).1.warningClosed.1

/-- `requestClose` where the question is asked. -/
def asked (reply : Reply) (e : SftpFileEditor) : SftpFileEditor × CloseResult :=
  match e.answered reply.answer with
  | (e, some result) => (e, result)
  | (e, none) =>
    let e := saveFinished reply.uploaded e
    (e, .saved e.lastSaveOk)

/-- The prompt is cancelled, or the save fails. -/
def Reply.refuses (e : SftpFileEditor) : Reply → Bool
  | .save reply uploaded => !((e.startSave reply).2 && uploaded)
  | .discard => false
  | .cancel => true

/-! ## The windows -/

structure Window where
  /-- `m_tabs->count()` -/
  tabs : Nat
  /-- `findChildren<SftpFileEditor *>()` -/
  editors : List SftpFileEditor

structure Application where
  /-- `none` when it is closed. -/
  primary : Option Window
  /-- The other windows of `s_windows`; they have no parent. -/
  detached : List Window
  /-- `s_quitting` -/
  quitting : Bool
  /-- How many editors asked. -/
  prompts : Nat
  /-- How the calls of `requestClose` ended. -/
  results : List CloseResult

namespace Application

variable (replies : Nat → Reply)

/-- The loop over the editors, which ends at the first that refuses. -/
def requestCloses : List SftpFileEditor → Application → Application × List SftpFileEditor × Bool
  | [], s => (s, [], true)
  | e :: es, s =>
    match e.requestClose with
    | some result =>
      let s := { s with results := s.results ++ [result] }
      if result.value then
        let (s, es, accepted) := requestCloses es s
        (s, e :: es, accepted)
      else (s, e :: es, false)
    | none =>
      let (e, result) := asked (replies s.prompts) e
      let s := { s with prompts := s.prompts + 1, results := s.results ++ [result] }
      if result.value then
        let (s, es, accepted) := requestCloses es s
        (s, e :: es, accepted)
      else (s, e :: es, false)

/-- `closeEvent` up to its loop over the other windows, and whether the event is accepted. `yes` answers the question whether the
tabs may be ended. -/
def closeEvent (secondary yes : Bool) (w : Window) (s : Application) : Application × Window × Bool :=
  if secondary ∧ ¬ s.quitting ∧ 0 < w.tabs ∧ ¬ yes then (s, w, false)
  else
    let (s, editors, accepted) := s.requestCloses replies w.editors
    (s, { w with editors := editors }, accepted)

def remain (w : Window) (s : Application) : Application := { s with detached := s.detached ++ [w] }

/-- The windows that do not accept remain. -/
def closeOthers (yes : Bool) : List Window → Application → Application
  | [], s => s
  | w :: ws, s =>
    let (s, w, accepted) := s.closeEvent replies true yes w
    closeOthers yes ws (if accepted then s else s.remain w)

/-- The first window is closed. -/
def closePrimary (yes : Bool) (s : Application) : Application :=
  match s.primary with
  | none => s
  | some w =>
    let (s, w, accepted) := s.closeEvent replies false yes w
    if accepted then
      let s' := closeOthers replies yes s.detached { s with quitting := true, detached := [] }
      { s' with primary := none }
    else { s with primary := some w }

end Application

/-! ## What quitting should do -/

/-- All windows are closed, and every editor is unmodified, saved or discarded. -/
structure AllClosed (s s' : Application) : Prop where
  primary : s'.primary = none
  detached : s'.detached = []
  asked : s'.results.length = ((s.primary.toList ++ s.detached).flatMap (·.editors)).length
  accepted : ∀ result ∈ s'.results, result.value = true

/-- No window is closed because an editor refused, and an editor that was not saved will ask as before. -/
structure NoneClosed (s s' : Application) : Prop where
  refused : ∃ result ∈ s'.results, result.value = false
  primary : ∃ w w', s.primary = some w ∧ s'.primary = some w' ∧ w'.tabs = w.tabs ∧ w'.editors.length = w.editors.length ∧
    ∀ (i : Nat) (e e' : SftpFileEditor), w.editors[i]? = some e → w'.editors[i]? = some e' →
      e'.requestClose = e.requestClose ∨ s'.results[i]? = some (.saved true)
  detached : s'.detached = s.detached
  quitting : s'.quitting = s.quitting

def QuitsWhole (s s' : Application) : Prop := AllClosed s s' ∨ NoneClosed s s'

/-- The editors that ask. -/
def asking (es : List SftpFileEditor) : List SftpFileEditor := es.filter (·.requestClose = none)

/-- One of them gets an answer that refuses, when they ask one after another from prompt number `k` on. -/
def Refused (replies : Nat → Reply) : Nat → List SftpFileEditor → Prop
  | _, [] => False
  | k, e :: es => (replies k).refuses e = true ∨ Refused replies (k + 1) es

/-! ## Prompts -/

section Prompts

variable {replies : Nat → Reply}

theorem refused_append (k : Nat) (es es' : List SftpFileEditor) :
    Refused replies k (es ++ es') ↔ Refused replies k es ∨ Refused replies (k + es.length) es' := by
  induction es generalizing k with
  | nil => simp [Refused]
  | cons e es ih =>
    rw [List.cons_append, Refused, Refused, ih (k + 1), List.length_cons, or_assoc]
    have hnumber : k + 1 + es.length = k + (es.length + 1) := by omega
    rw [hnumber]

theorem requestClose_value {e : SftpFileEditor} {result : CloseResult} (h : e.requestClose = some result) : result.value = true := by
  unfold SftpFileEditor.requestClose at h
  split at h
  next =>
    cases h
    rfl
  next => cases h

theorem startSave_saving {e : SftpFileEditor} {reply : WriteReply} (h : (e.startSave reply).2 = true) :
    (e.startSave reply).1.saving = true := by
  unfold SftpFileEditor.startSave at h ⊢
  split
  next hbusy =>
    rw [if_pos hbusy] at h
    cases h
  next hfree =>
    rw [if_neg hfree] at h
    cases reply with
    | cannotOpen => cases h
    | fails left => cases h
    | written kept =>
      cases kept with
      | none => rfl
      | some n => rfl

theorem asked_value (reply : Reply) (e : SftpFileEditor) : (asked reply e).2.value = !reply.refuses e := by
  cases reply with
  | discard => rfl
  | cancel => rfl
  | save reply uploaded =>
    unfold asked Reply.answer SftpFileEditor.answered SftpFileEditor.saveAndWait Reply.refuses
    simp only
    cases hstarted : (e.startSave reply).2 with
    | false => simp [CloseResult.value]
    | true =>
      have hsaving := startSave_saving hstarted
      cases uploaded with
      | true => simp [CloseResult.value, Reply.uploaded, saveFinished, SftpFileEditor.onOperationSucceeded, hsaving]
      | false => simp [CloseResult.value, Reply.uploaded, saveFinished, SftpFileEditor.warningClosed]

theorem startSave_requestClose (reply : WriteReply) (e : SftpFileEditor) :
    (e.startSave reply).1.requestClose = e.requestClose := by
  obtain ⟨copy, saving, hframe, -⟩ := SftpFileEditor.startSave_frame reply e
  rw [hframe]
  rfl

theorem onOperationFailed_requestClose (operation path : String) (e : SftpFileEditor) :
    (e.onOperationFailed operation path).1.requestClose = e.requestClose := by
  unfold SftpFileEditor.onOperationFailed
  split
  next => rfl
  next =>
    split
    next => rfl
    next => rfl

/-- What was not saved asks again. -/
theorem asked_again (reply : Reply) (e : SftpFileEditor) :
    (asked reply e).1.requestClose = e.requestClose ∨ (asked reply e).2 = .saved true := by
  cases reply with
  | discard => exact .inl rfl
  | cancel => exact .inl rfl
  | save reply uploaded =>
    unfold asked Reply.answer SftpFileEditor.answered SftpFileEditor.saveAndWait
    simp only
    cases hstarted : (e.startSave reply).2 with
    | false => exact .inl (startSave_requestClose reply e)
    | true =>
      cases uploaded with
      | true =>
        right
        have hsaving := startSave_saving hstarted
        simp [Reply.uploaded, saveFinished, SftpFileEditor.onOperationSucceeded, hsaving]
      | false =>
        left
        calc ((e.startSave reply).1.onOperationFailed "upload" (e.startSave reply).1.remotePath).1.warningClosed.1.requestClose
            = ((e.startSave reply).1.onOperationFailed "upload" (e.startSave reply).1.remotePath).1.requestClose := rfl
          _ = (e.startSave reply).1.requestClose := onOperationFailed_requestClose _ _ _
          _ = e.requestClose := startSave_requestClose reply e

end Prompts

/-! ## Windows -/

section Windows

variable {replies : Nat → Reply}

theorem asking_append (es es' : List SftpFileEditor) : asking (es ++ es') = asking es ++ asking es' := List.filter_append ..

theorem asking_cons (e : SftpFileEditor) (es : List SftpFileEditor) : asking (e :: es) = asking [e] ++ asking es :=
  asking_append [e] es

/-- How the editors are asked up to the first that refuses; `new` are the results. -/
structure Questioned (replies : Nat → Reply) (es : List SftpFileEditor) (s s' : Application) (es' : List SftpFileEditor)
    (accepted : Bool) (new : List CloseResult) : Prop where
  frame : s' = { s with prompts := s'.prompts, results := s.results ++ new }
  refused_iff : accepted = false ↔ Refused replies s.prompts (asking es)
  prompts : accepted = true → s'.prompts = s.prompts + (asking es).length
  all : accepted = true → new.length = es.length ∧ ∀ result ∈ new, result.value = true
  refusal : accepted = false → ∃ result ∈ new, result.value = false
  length : es'.length = es.length
  again : ∀ (i : Nat) (e e' : SftpFileEditor), es[i]? = some e → es'[i]? = some e' →
    e'.requestClose = e.requestClose ∨ new[i]? = some (.saved true)

namespace Questioned

variable {e e' : SftpFileEditor} {es es' : List SftpFileEditor} {s s' : Application} {accepted : Bool} {result : CloseResult}
  {new : List CloseResult}

theorem detached (h : Questioned replies es s s' es' accepted new) : s'.detached = s.detached := by rw [h.frame]

theorem quitting (h : Questioned replies es s s' es' accepted new) : s'.quitting = s.quitting := by rw [h.frame]

theorem results (h : Questioned replies es s s' es' accepted new) : s'.results = s.results ++ new := by rw [h.frame]

theorem done (s : Application) : Questioned replies [] s s [] true [] where
  frame := by rw [List.append_nil]
  refused_iff := iff_of_false (by decide) id
  prompts _ := rfl
  all _ := ⟨rfl, fun _ hmem => nomatch hmem⟩
  refusal h := nomatch h
  length := rfl
  again _ _ _ h := nomatch h

/-- The first editor refuses. -/
theorem stop (hvalue : result.value = false) (hrefused : Refused replies s.prompts (asking [e]))
    (hagain : e'.requestClose = e.requestClose ∨ result = .saved true) (prompts : Nat) :
    Questioned replies (e :: es) s { s with prompts := prompts, results := s.results ++ [result] } (e' :: es) false [result] where
  frame := rfl
  refused_iff := by
    rw [asking_cons, refused_append]
    exact iff_of_true rfl (.inl hrefused)
  prompts h := nomatch h
  all h := nomatch h
  refusal _ := ⟨result, .head _, hvalue⟩
  length := rfl
  again i old later hold hlater := by
    cases i with
    | zero =>
      cases hold
      cases hlater
      exact hagain.imp_right (congrArg some)
    | succ i =>
      rw [List.getElem?_cons_succ] at hold hlater
      rw [hold] at hlater
      cases hlater
      exact .inl rfl

/-- The first editor does not refuse. -/
theorem cons (hvalue : result.value = true) (haccepted : ¬ Refused replies s.prompts (asking [e]))
    (hagain : e'.requestClose = e.requestClose ∨ result = .saved true)
    (h : Questioned replies es { s with prompts := s.prompts + (asking [e]).length, results := s.results ++ [result] } s' es'
      accepted new) :
    Questioned replies (e :: es) s s' (e' :: es') accepted (result :: new) where
  frame := by simpa using h.frame
  refused_iff := by
    rw [asking_cons, refused_append, h.refused_iff]
    exact (or_iff_right haccepted).symm
  prompts haccept := by
    rw [h.prompts haccept, asking_cons e es, List.length_append, Nat.add_assoc]
  all haccept := by
    obtain ⟨hlength, hall⟩ := h.all haccept
    exact ⟨congrArg (· + 1) hlength, List.forall_mem_cons.mpr ⟨hvalue, hall⟩⟩
  refusal hrefuse := by
    obtain ⟨refusal, hmem, hfalse⟩ := h.refusal hrefuse
    exact ⟨refusal, .tail _ hmem, hfalse⟩
  length := congrArg (· + 1) h.length
  again i old later hold hlater := by
    cases i with
    | zero =>
      cases hold
      cases hlater
      exact hagain.imp_right (congrArg some)
    | succ i => exact h.again i old later hold hlater

end Questioned

theorem requestCloses_questioned (replies : Nat → Reply) (es : List SftpFileEditor) (s : Application) :
    ∃ new, Questioned replies es s (s.requestCloses replies es).1 (s.requestCloses replies es).2.1
      (s.requestCloses replies es).2.2 new := by
  induction es generalizing s with
  | nil => exact ⟨[], .done s⟩
  | cons e es ih =>
    rw [Application.requestCloses.eq_def]
    simp only
    cases hclose : e.requestClose with
    | some result =>
      have hvalue := requestClose_value hclose
      have hnone : asking [e] = [] := by simp [asking, hclose]
      simp only [hvalue, if_true]
      obtain ⟨new, hrest⟩ := ih { s with results := s.results ++ [result] }
      refine ⟨result :: new, .cons hvalue ?_ (.inl rfl) ?_⟩
      · rw [hnone]
        exact id
      · rw [hnone]
        exact hrest
    | none =>
      have hone : asking [e] = [e] := by simp [asking, hclose]
      have hagain := asked_again (replies s.prompts) e
      have hvalue := asked_value (replies s.prompts) e
      simp only
      cases hrefuses : (replies s.prompts).refuses e with
      | true =>
        rw [hrefuses] at hvalue
        simp only [hvalue]
        refine ⟨_, .stop hvalue ?_ hagain _⟩
        rw [hone]
        exact .inl hrefuses
      | false =>
        rw [hrefuses] at hvalue
        simp only [hvalue]
        obtain ⟨new, hrest⟩ := ih { s with prompts := s.prompts + 1, results := s.results ++ [(asked (replies s.prompts) e).2] }
        refine ⟨_ :: new, .cons hvalue ?_ hagain ?_⟩
        · rw [hone]
          simp [Refused, hrefuses]
        · rw [hone]
          exact hrest

/-- While quitting nobody is asked for the tabs. -/
theorem closeEvent_quitting (yes : Bool) (w : Window) {s : Application} (h : s.quitting = true) :
    s.closeEvent replies true yes w = ((s.requestCloses replies w.editors).1,
      { w with editors := (s.requestCloses replies w.editors).2.1 }, (s.requestCloses replies w.editors).2.2) := by
  unfold Application.closeEvent
  rw [if_neg fun hasks => hasks.2.1 h]

/-- The first window has no question about its tabs. -/
theorem closeEvent_primary (yes : Bool) (w : Window) (s : Application) :
    s.closeEvent replies false yes w = ((s.requestCloses replies w.editors).1,
      { w with editors := (s.requestCloses replies w.editors).2.1 }, (s.requestCloses replies w.editors).2.2) := by
  unfold Application.closeEvent
  rw [if_neg fun hasks => nomatch hasks.1]

/-- Windows that remain are there to the end. -/
theorem closeOthers_detached (replies : Nat → Reply) (yes : Bool) (ws : List Window) (s : Application) (h : s.quitting = true) :
    s.detached <+: (s.closeOthers replies yes ws).detached := by
  induction ws generalizing s with
  | nil => exact List.prefix_refl _
  | cons w ws ih =>
    obtain ⟨new, hasked⟩ := requestCloses_questioned replies w.editors s
    have hquitting := hasked.quitting.trans h
    rw [Application.closeOthers, closeEvent_quitting yes w h, ← hasked.detached]
    simp only
    split
    next => exact ih _ hquitting
    next =>
      have hrest := ih ((s.requestCloses replies w.editors).1.remain { w with editors := (s.requestCloses replies w.editors).2.1 })
        hquitting
      exact (List.prefix_append _ _).trans hrest

theorem closeOthers_refused (yes : Bool) (ws : List Window) {s : Application} (h : s.quitting = true)
    (hrefused : Refused replies s.prompts (asking (ws.flatMap (·.editors)))) :
    (s.closeOthers replies yes ws).detached ≠ [] := by
  induction ws generalizing s with
  | nil => exact hrefused.elim
  | cons w ws ih =>
    obtain ⟨new, hasked⟩ := requestCloses_questioned replies w.editors s
    have hquitting := hasked.quitting.trans h
    rw [List.flatMap_cons, asking_append, refused_append] at hrefused
    rw [Application.closeOthers, closeEvent_quitting yes w h]
    simp only
    cases haccepted : (s.requestCloses replies w.editors).2.2 with
    | true =>
      rw [haccepted] at hasked
      simp only [if_true]
      apply ih hquitting
      rw [hasked.prompts rfl]
      exact hrefused.resolve_left fun hone => Bool.noConfusion (hasked.refused_iff.mpr hone)
    | false =>
      simp only [Bool.false_eq_true, if_false]
      intro hnil
      have hprefix := closeOthers_detached replies yes ws
        ((s.requestCloses replies w.editors).1.remain { w with editors := (s.requestCloses replies w.editors).2.1 }) hquitting
      rw [hnil] at hprefix
      exact List.append_ne_nil_of_right_ne_nil _ (List.cons_ne_nil _ _) (List.prefix_nil.mp hprefix)

theorem closeOthers_accepted (yes : Bool) (ws : List Window) {s : Application} (h : s.quitting = true)
    (haccepted : ¬ Refused replies s.prompts (asking (ws.flatMap (·.editors)))) :
    (s.closeOthers replies yes ws).detached = s.detached ∧ ∃ new, (s.closeOthers replies yes ws).results = s.results ++ new ∧
      new.length = (ws.flatMap (·.editors)).length ∧ ∀ result ∈ new, result.value = true := by
  induction ws generalizing s with
  | nil => exact ⟨rfl, [], (List.append_nil _).symm, rfl, fun _ hmem => nomatch hmem⟩
  | cons w ws ih =>
    obtain ⟨new, hasked⟩ := requestCloses_questioned replies w.editors s
    have hquitting := hasked.quitting.trans h
    rw [List.flatMap_cons, asking_append, refused_append, not_or, ← hasked.refused_iff, Bool.not_eq_false] at haccepted
    obtain ⟨hfirst, hrest⟩ := haccepted
    rw [Application.closeOthers, closeEvent_quitting yes w h]
    simp only
    rw [hfirst, if_pos rfl]
    rw [← hasked.prompts hfirst] at hrest
    obtain ⟨hdetached, more, hresults, hlength, hvalues⟩ := ih hquitting hrest
    obtain ⟨hnew, hall⟩ := hasked.all hfirst
    refine ⟨?_, new ++ more, ?_, ?_, ?_⟩
    · rw [hdetached, hasked.detached]
    · rw [hresults, hasked.results, List.append_assoc]
    · rw [List.flatMap_cons, List.length_append, List.length_append, hnew, hlength]
    · exact List.forall_mem_append.mpr ⟨hall, hvalues⟩

end Windows

/-! ## The claim -/

/-- Quitting is all or nothing if and only if one of the first window's own prompts is refused, or none of the others'. -/
theorem quits_whole_iff (replies : Nat → Reply) (yes : Bool) (primary : Window) (detached : List Window) (quitting : Bool)
    (prompts : Nat) :
    QuitsWhole ⟨some primary, detached, quitting, prompts, []⟩
        (Application.closePrimary replies yes ⟨some primary, detached, quitting, prompts, []⟩) ↔
      (Refused replies prompts (asking primary.editors) ∨
        ¬ Refused replies (prompts + (asking primary.editors).length) (asking (detached.flatMap (·.editors)))) := by
  obtain ⟨new, hasked⟩ := requestCloses_questioned replies primary.editors ⟨some primary, detached, quitting, prompts, []⟩
  unfold Application.closePrimary
  simp only
  rw [closeEvent_primary]
  generalize Application.requestCloses replies primary.editors ⟨some primary, detached, quitting, prompts, []⟩ = out at hasked ⊢
  obtain ⟨s, editors, accepted⟩ := out
  simp only at hasked ⊢
  have hresults : s.results = new := hasked.results
  cases accepted with
  | false =>
    have hrefused := hasked.refused_iff.mp rfl
    have hnone : NoneClosed ⟨some primary, detached, quitting, prompts, []⟩
        { s with primary := some { primary with editors := editors } } := {
      refused := by
        rw [hresults]
        exact hasked.refusal rfl
      primary := ⟨primary, _, rfl, rfl, rfl, hasked.length, by
        rw [hresults]
        exact hasked.again⟩
      detached := hasked.detached
      quitting := hasked.quitting }
    exact iff_of_true (.inr hnone) (.inl hrefused)
  | true =>
    have hmine : ¬ Refused replies prompts (asking primary.editors) := fun hone => Bool.noConfusion (hasked.refused_iff.mpr hone)
    have hprompts : s.prompts = prompts + (asking primary.editors).length := hasked.prompts rfl
    have hdetached : s.detached = detached := hasked.detached
    obtain ⟨hnew, hvalues⟩ := hasked.all rfl
    rw [or_iff_right hmine, ← hprompts, ← hdetached]
    constructor
    · rintro (hall | hnone) hrefused
      · exact closeOthers_refused yes s.detached (s := { s with quitting := true, detached := [] }) rfl hrefused hall.detached
      · obtain ⟨w, w', -, hopen, -⟩ := hnone.primary
        cases hopen
    · intro haccepted
      obtain ⟨hclosed, more, hmore, hlength, hothers⟩ :=
        closeOthers_accepted yes s.detached (s := { s with quitting := true, detached := [] }) rfl haccepted
      left
      refine ⟨rfl, hclosed, ?_, ?_⟩
      · show (Application.closeOthers replies yes s.detached _).results.length = _
        rw [hmore]
        simp [hresults, hnew, hlength, hdetached]
      · show ∀ result ∈ (Application.closeOthers replies yes s.detached _).results, _
        rw [hmore, hresults]
        exact List.forall_mem_append.mpr ⟨hvalues, hothers⟩

/-- An editor of a text that was changed. -/
def changedEditor : SftpFileEditor := { SftpFileEditor.fresh "/f" with loaded := true }

/-- The prompt of an editor of the second window is cancelled: the first window is closed all the same. -/
theorem cancelled_half_way : ¬ ∀ (replies : Nat → Reply) (yes : Bool) (s : Application), s.primary.isSome = true →
    QuitsWhole s (s.closePrimary replies yes) := by
  intro h
  rcases h (fun _ => .cancel) true ⟨some ⟨1, []⟩, [⟨1, [changedEditor]⟩], false, 0, []⟩ rfl with hall | hnone
  · cases hall.detached
  · obtain ⟨w, w', -, hopen, -⟩ := hnone.primary
    cases hopen

end LvdTerm.App.Quitting
