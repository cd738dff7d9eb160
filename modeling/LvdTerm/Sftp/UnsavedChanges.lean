import LvdTerm.Lib.Runs
import LvdTerm.Sftp.EditorRun
import LvdTerm.Sftp.SameBytes
import LvdTerm.Sftp.UploadTree

/-!
# SftpFileEditor: no edit is dropped

An unmodified document should be what the server has. `onOperationSucceeded` marks it unmodified as
it is when the upload's success arrives, and a failed upload leaves the mark alone, so this holds
in the runs in which the document is then still what was uploaded (`StepKeeps`).
-/
namespace LvdTerm.Sftp

open Lib.Runs Lib.Paths QTextDocument

/-- The text is in the file: Save writes it as these bytes, or these bytes are shown as it. -/
def FileHas (crlf : Bool) (bytes : List UInt8) (text : List Char) : Prop :=
  bytes = writeText crlf text ∨
    ∃ normalized crlf', readText bytes = .ok (normalized, crlf') ∧ shown normalized = text

/-- After the event an unmodified document has the text of the last successful transfer, and a
close request that got its `true` unasked or by saving leaves the current text on the server. -/
structure NothingLost (s : EditorRun) (event : EditorEvent) : Prop where
  unmodified : (s.next event).editor.loaded = true → (s.next event).editor.isModified = false →
    FileHas (s.next event).editor.crlf (s.next event).confirmed (s.next event).editor.text
  closed : ∀ result, (s.step event).2 = some result → result = .unasked ∨ result = .saved true →
    (s.next event).editor.loaded = true →
      ∃ bytes, (s.next event).remote = some bytes ∧ FileHas (s.next event).editor.crlf bytes (s.next event).editor.text

/-- When the success of an upload arrives, the working copy has the text of the document; and a
close request does not find the document unmodified after a failed upload changed the file. -/
def StepKeeps (s : EditorRun) : EditorEvent → Prop
  | .uploadSucceeded => ∀ bytes, s.editor.saving = true → s.editor.workingCopy = .ok bytes →
      FileHas s.editor.crlf bytes s.editor.text
  | .close => s.editor.loaded = true → s.editor.isModified = false → s.remote = some s.confirmed
  | _ => True

/-! ## The undo history -/

def QTextDocument.revisions (d : QTextDocument) : List Revision := d.undo ++ d.now :: d.redo

theorem clean_setUnmodified {d : QTextDocument} {r : Revision} (h : r ∈ d.setUnmodified.revisions) (hclean : r.clean = true) :
    r.raw = d.now.raw := by
  have hforget : ∀ revisions : List Revision, r ∉ revisions.map forget := by
    intro revisions hmem
    obtain ⟨old, -, rfl⟩ := List.mem_map.mp hmem
    cases hclean
  simp only [revisions, setUnmodified, List.mem_append, List.mem_cons] at h
  obtain h | rfl | h := h
  · exact absurd h (hforget d.undo)
  · rfl
  · exact absurd h (hforget d.redo)

/-- An edit makes no clean revision. -/
theorem clean_apply {d : QTextDocument} {edit : Edit} {r : Revision} (h : r ∈ (edit.apply d).revisions)
    (hclean : r.clean = true) : r ∈ d.revisions := by
  cases edit with
  | change text merges =>
    have hnew : r ≠ ⟨blocks text, false⟩ := by
      rintro rfl
      cases hclean
    dsimp only [Edit.apply] at h
    split at h
    · simp only [revisions, List.mem_append, List.mem_cons, List.not_mem_nil, or_false] at h ⊢
      exact .inl (h.resolve_right hnew)
    · simp only [revisions, List.cons_append, List.mem_append, List.mem_cons, List.not_mem_nil, or_false] at h ⊢
      obtain h | h | h := h
      · exact .inr (.inl h)
      · exact .inl h
      · exact absurd h hnew
  | undo =>
    dsimp only [Edit.apply] at h
    split at h
    · exact h
    next hundo =>
      simp only [revisions, hundo, List.cons_append, List.mem_append, List.mem_cons] at h ⊢
      tauto
  | redo =>
    dsimp only [Edit.apply] at h
    split at h
    · exact h
    next hredo =>
      simp only [revisions, hredo, List.cons_append, List.mem_append, List.mem_cons] at h ⊢
      tauto

/-! ## The invariant -/

/-- A call of `saveAndWait` returns before any edit: its loop has ended, and only questions are
asked in it. -/
def Returning : List Frame → Prop
  | .waiting true :: _ => True
  | .question :: frames => Returning frames
  | _ => False

theorem step_cases (s : EditorRun) (event : EditorEvent) :
    (∃ frames, s.frames = .waiting true :: frames ∧
      s.step event = ({ s with frames := frames }, some (.saved s.editor.lastSaveOk))) ∨
    (∃ frames, s.frames = .waiting true :: frames ∧ s.step event = (s, none)) ∨
    (∀ frames, s.frames ≠ .waiting true :: frames) ∧ s.step event = s.handle event := by
  unfold EditorRun.step
  split
  next frames hframes => exact .inl ⟨frames, hframes, rfl⟩
  next frames hframes _ => exact .inr (.inl ⟨frames, hframes, rfl⟩)
  next htop _ => exact .inr (.inr ⟨fun frames hframes => htop frames hframes, rfl⟩)

structure Saved (s : EditorRun) : Prop where
  loaded : s.editor.loaded = true
  unmodified : s.editor.isModified = false
  remote : s.remote = some s.confirmed

structure Kept (s : EditorRun) : Prop where
  loaded : s.editor.saving = true → s.editor.loaded = true
  clean : s.editor.loaded = true → ∀ r ∈ s.editor.document.revisions, r.clean = true →
    FileHas s.editor.crlf s.confirmed (toPlainText r.raw)
  returning : Returning s.frames → s.editor.lastSaveOk = true → Saved s

theorem not_returning {s : EditorRun} (hinput : s.takesInput = true) (htop : ∀ frames, s.frames ≠ .waiting true :: frames) :
    ¬ Returning s.frames := by
  unfold EditorRun.takesInput at hinput
  cases hframes : s.frames with
  | nil => exact id
  | cons frame frames =>
    cases frame with
    | question => simp [hframes, Frame.isBox] at hinput
    | warning => exact id
    | waiting quit =>
      cases quit with
      | true => exact absurd hframes (htop frames)
      | false => exact id

namespace Kept

variable {s : EditorRun}

theorem start (remotePath : String) (remote : Option (List UInt8)) : Kept (.start remotePath remote) where
  loaded h := by cases h
  clean h := by cases h
  returning h := by cases h

theorem unmodified (hs : Kept s) (hloaded : s.editor.loaded = true) (hclean : s.editor.isModified = false) :
    FileHas s.editor.crlf s.confirmed s.editor.text := by
  apply hs.clean hloaded
  · simp [revisions]
  · simpa [SftpFileEditor.isModified, QTextDocument.isModified] using hclean

/-- A loop that ends, or a box that closes, with nothing else changed. -/
theorem pop (hs : Kept s) {frames : List Frame} (h : Returning frames → Returning s.frames) :
    Kept { s with frames := frames } where
  loaded := hs.loaded
  clean := hs.clean
  returning hreturning hok :=
    have hsaved := hs.returning (h hreturning) hok
    ⟨hsaved.loaded, hsaved.unmodified, hsaved.remote⟩

theorem edit (hs : Kept s) (hnot : ¬ Returning s.frames) (edit : Edit) :
    Kept { s with editor := { s.editor with document := edit.apply s.editor.document } } where
  loaded := hs.loaded
  clean hloaded r hr hclean := hs.clean hloaded r (clean_apply hr hclean) hclean
  returning hreturning := absurd hreturning hnot

theorem save (hs : Kept s) (reply : WriteReply) : Kept { s with editor := (s.editor.startSave reply).1 } := by
  obtain ⟨copy, saving, heq, hsaving⟩ := SftpFileEditor.startSave_frame reply s.editor
  rw [heq]
  exact {
    loaded := fun h => (hsaving h).elim hs.loaded id
    clean := hs.clean
    returning := fun hreturning hok =>
      have hsaved := hs.returning hreturning hok
      ⟨hsaved.loaded, hsaved.unmodified, hsaved.remote⟩ }

theorem answer (hs : Kept s) (choice : Answer) : Kept (s.handle (.answer choice)).1 := by
  unfold EditorRun.handle
  dsimp only
  split
  next frames hframes =>
    have hpop : Returning frames → Returning s.frames := by
      intro h
      rw [hframes]
      exact h
    cases choice with
    | discard => exact hs.pop hpop
    | cancel => exact hs.pop hpop
    | save reply =>
      have hsaved := hs.save reply
      unfold SftpFileEditor.answered SftpFileEditor.saveAndWait
      dsimp only
      by_cases hstarted : (s.editor.startSave reply).2 = true
      · -- the new loop has not ended
        simp only [hstarted, if_true, Option.map_none, Option.isSome_none, Bool.false_eq_true, if_false]
        exact { loaded := hsaved.loaded, clean := hsaved.clean, returning := fun h => h.elim }
      · simp only [hstarted, Bool.false_eq_true, if_false, Option.map_some, Option.isSome_some, if_true]
        exact hsaved.pop hpop
  next => exact hs

/-- Nothing is loaded yet, so nothing has been saved. -/
theorem download (hs : Kept s) (hnot : s.editor.loaded = false) {e : SftpFileEditor} {bytes : List UInt8}
    (hsaving : e.saving = s.editor.saving) (hok : e.lastSaveOk = s.editor.lastSaveOk)
    (hclean : e.loaded = true → ∀ r ∈ e.document.revisions, r.clean = true → FileHas e.crlf bytes (toPlainText r.raw)) :
    Kept { s with editor := e, confirmed := bytes } where
  loaded h := by
    rw [hsaving] at h
    have hloaded := hs.loaded h
    rw [hnot] at hloaded
    cases hloaded
  clean := hclean
  returning hreturning h := by
    rw [hok] at h
    have hloaded := (hs.returning hreturning h).loaded
    rw [hnot] at hloaded
    cases hloaded

theorem downloadSucceeded (hs : Kept s) (unreadable : Option String) : Kept (s.handle (.downloadSucceeded unreadable)).1 := by
  unfold EditorRun.handle
  dsimp only
  split
  next => exact hs
  next bytes hremote =>
    split
    next => exact hs
    next hnot =>
      have hnot : s.editor.loaded = false := by simpa using hnot
      have hop : ∀ copy, { s.editor with workingCopy := copy }.onOperationSucceeded "download" s.editor.remotePath =
          ({ s.editor with workingCopy := copy }.loadDownloadedFile.toOption.getD { s.editor with workingCopy := copy }, none) := by
        intro copy
        simp [SftpFileEditor.onOperationSucceeded, hnot]
      rw [hop]
      cases unreadable with
      | some message =>
        have hsame : ∀ e : SftpFileEditor, e.loadDownloadedFile.toOption = none → e.loadDownloadedFile.toOption.getD e = e := by
          intro e he
          rw [he]
          rfl
        rw [hsame _ rfl]
        exact hs.download hnot rfl rfl (fun h => absurd h (by simp [hnot]))
      | none =>
        cases hload : SftpFileEditor.loadDownloadedFile { s.editor with workingCopy := Except.ok bytes } with
        | error message => exact hs.download hnot rfl rfl (fun h => absurd h (by simp [Except.toOption, hnot]))
        | ok e =>
          obtain ⟨bytes', normalized, crlf, hcopy, hread, rfl⟩ := SftpFileEditor.loadDownloadedFile_ok.mp hload
          cases hcopy
          refine hs.download hnot rfl rfl (fun _ r hr _ => ?_)
          have hraw : r.raw = blocks normalized := clean_setUnmodified hr ‹_›
          rw [hraw]
          exact .inr ⟨normalized, crlf, hread, rfl⟩

theorem uploadSucceeded (hs : Kept s) (h : StepKeeps s .uploadSucceeded) : Kept (s.handle .uploadSucceeded).1 := by
  unfold EditorRun.handle
  dsimp only
  split
  next bytes hsaving hcopy =>
    have hfile := h bytes hsaving hcopy
    have hloaded := hs.loaded hsaving
    have hop : s.editor.onOperationSucceeded "upload" s.editor.remotePath =
        ({ s.editor with saving := false, document := s.editor.document.setUnmodified, lastSaveOk := true }, some true) := by
      simp [SftpFileEditor.onOperationSucceeded, hsaving]
    rw [hop]
    exact {
      loaded := nofun
      clean := fun _ r hr hclean => by
        rw [clean_setUnmodified hr hclean]
        exact hfile
      returning := fun _ _ => ⟨hloaded, rfl, rfl⟩ }
  next => exact hs

theorem uploadFailed (hs : Kept s) (left : Option (List UInt8)) (message : String) :
    Kept (s.handle (.uploadFailed left message)).1 := by
  unfold EditorRun.handle
  dsimp only
  split
  next hsaving =>
    have hop : s.editor.onOperationFailed "upload" s.editor.remotePath = ({ s.editor with saving := false }, true) := by
      simp [SftpFileEditor.onOperationFailed, hsaving]
    rw [hop]
    exact { loaded := nofun, clean := hs.clean, returning := fun h => h.elim }
  next => exact hs

theorem warningClosed (hs : Kept s) : Kept (s.handle .warningClosed).1 := by
  unfold EditorRun.handle
  dsimp only
  split
  next => exact { loaded := hs.loaded, clean := hs.clean, returning := nofun }
  next => exact hs

theorem close (hs : Kept s) : Kept (s.handle .close).1 := by
  unfold EditorRun.handle
  dsimp only
  split
  next => exact hs
  next => exact hs.pop id

theorem handle (hs : Kept s) (htop : ∀ frames, s.frames ≠ .waiting true :: frames) (event : EditorEvent)
    (h : StepKeeps s event) : Kept (s.handle event).1 := by
  cases event with
  | downloadSucceeded unreadable => exact hs.downloadSucceeded unreadable
  | edit change =>
    unfold EditorRun.handle
    dsimp only
    split
    next hinput => exact hs.edit (not_returning hinput.1 htop) change
    next => exact hs
  | save reply =>
    unfold EditorRun.handle
    dsimp only
    split
    next => exact hs.save reply
    next => exact hs
  | uploadSucceeded => exact hs.uploadSucceeded h
  | uploadFailed left message => exact hs.uploadFailed left message
  | warningClosed => exact hs.warningClosed
  | close => exact hs.close
  | answer choice => exact hs.answer choice
  | loopEnded => exact hs

theorem next (hs : Kept s) (event : EditorEvent) (h : StepKeeps s event) : Kept (s.next event) := by
  unfold EditorRun.next
  obtain ⟨frames, hframes, hstep⟩ | ⟨_, _, hstep⟩ | ⟨htop, hstep⟩ := step_cases s event
  · rw [hstep]
    apply hs.pop
    intro _
    rw [hframes]
    trivial
  · rw [hstep]
    exact hs
  · rw [hstep]
    exact hs.handle htop event h

end Kept

/-! ## What a step returns -/

theorem answered_result (e : SftpFileEditor) (choice : Answer) {result : CloseResult} (h : (e.answered choice).2 = some result) :
    result ≠ .unasked ∧ result ≠ .saved true := by
  cases choice with
  | save reply =>
    unfold SftpFileEditor.answered SftpFileEditor.saveAndWait at h
    by_cases hstarted : (e.startSave reply).2 = true
    · simp [hstarted] at h
    · simp only [hstarted, Bool.false_eq_true, if_false, Option.map_some, Option.some.injEq] at h
      rw [← h]
      decide
  | discard =>
    cases h
    decide
  | cancel =>
    cases h
    decide

theorem requestClose_unasked {e : SftpFileEditor} {result : CloseResult} (h : e.requestClose = some result)
    (hloaded : e.loaded = true) : e.isModified = false := by
  unfold SftpFileEditor.requestClose at h
  split at h
  next hunasked => simpa [hloaded] using hunasked
  next => cases h

theorem handle_silent {s : EditorRun} {event : EditorEvent} (hclose : event ≠ .close)
    (hanswer : ∀ choice, event ≠ .answer choice) : (s.handle event).2 = none := by
  cases event with
  | close => exact absurd rfl hclose
  | answer choice => exact absurd rfl (hanswer choice)
  | _ =>
    dsimp only [EditorRun.handle]
    repeat' split
    all_goals rfl

/-- While an event is handled, `requestClose` ends with `true` only because the document is not
modified, or because of Discard. -/
theorem handle_result {s : EditorRun} {event : EditorEvent} {result : CloseResult} (h : (s.handle event).2 = some result)
    (hasked : result = .unasked ∨ result = .saved true) :
    event = .close ∧ (s.handle event).1 = s ∧ (s.editor.loaded = true → s.editor.isModified = false) := by
  by_cases hclose : event = .close
  · subst hclose
    dsimp only [EditorRun.handle] at h ⊢
    cases hrequest : s.editor.requestClose with
    | none =>
      rw [hrequest] at h
      cases h
    | some r => exact ⟨rfl, rfl, requestClose_unasked hrequest⟩
  · by_cases hanswer : ∃ choice, event = .answer choice
    · obtain ⟨choice, rfl⟩ := hanswer
      dsimp only [EditorRun.handle] at h
      split at h
      next =>
        have hresult := answered_result _ _ h
        exact absurd hasked (by simp [hresult])
      next => cases h
    · rw [handle_silent hclose (fun choice heq => hanswer ⟨choice, heq⟩)] at h
      cases h

theorem nothingLost {s : EditorRun} (hs : Kept s) (event : EditorEvent) (h : StepKeeps s event) : NothingLost s event where
  unmodified := (hs.next event h).unmodified
  closed result hresult hasked hloaded := by
    unfold EditorRun.next at hloaded ⊢
    obtain ⟨frames, hframes, hstep⟩ | ⟨_, _, hstep⟩ | ⟨htop, hstep⟩ := step_cases s event
    · rw [hstep] at hresult hloaded ⊢
      cases hresult
      have hok : s.editor.lastSaveOk = true := by simpa using hasked
      have hreturning : Returning s.frames := by
        rw [hframes]
        trivial
      have hsaved := hs.returning hreturning hok
      exact ⟨s.confirmed, hsaved.remote, hs.unmodified hsaved.loaded hsaved.unmodified⟩
    · rw [hstep] at hresult
      cases hresult
    · rw [hstep] at hresult hloaded ⊢
      obtain ⟨rfl, hsame, hunmodified⟩ := handle_result hresult hasked
      rw [hsame] at hloaded ⊢
      have hclean := hunmodified hloaded
      exact ⟨s.confirmed, h hloaded hclean, hs.unmodified hloaded hclean⟩

/-- The remote file after an upload that succeeds is the one `uploadFile` makes of the working
copy, if the server keeps what it was sent. -/
theorem uploadFile_remote {s : EditorRun} {data : List UInt8} (hsaving : s.editor.saving = true)
    (hcopy : s.editor.workingCopy = .ok data) (htop : ∀ frames, s.frames ≠ .waiting true :: frames)
    {f : UploadFaults} {st : Storage} {fs : Disk} {path : Text}
    (hok : (uploadFile true path (f.fileReply (resolve path) data)).ok = true) (hkept : st.kept (resolve path) data = data) :
    (uploadFile true path (f.fileReply (resolve path) data)).run st fs (resolve path) =
      (s.next .uploadSucceeded).remote.map Node.file := by
  have hremote : (s.next .uploadSucceeded).remote = some data := by
    unfold EditorRun.next
    obtain ⟨frames, hframes, -⟩ | ⟨frames, hframes, -⟩ | ⟨-, hstep⟩ := step_cases s .uploadSucceeded
    · exact absurd hframes (htop frames)
    · exact absurd hframes (htop frames)
    · rw [hstep]
      dsimp only [EditorRun.handle]
      rw [hsaving, hcopy]
      simp [SftpFileEditor.onOperationSucceeded, EditorRun.emit, hsaving]
  have hheld : (uploadFile true path (f.fileReply (resolve path) data)).run st fs (resolve path) =
      some (.file (st.kept (resolve path) data)) := uploadFile_held hok
  rw [hheld, hkept, hremote, Option.map_some]

/-! ## An edit in time, and one that comes too late -/

theorem next_downloadSucceeded {remotePath : String} {bytes : List UInt8} {normalized : List Char} {crlf : Bool}
    (hread : readText bytes = .ok (normalized, crlf)) :
    (EditorRun.start remotePath (some bytes)).next (.downloadSucceeded none) =
      ⟨showing remotePath bytes crlf normalized, [], some bytes, bytes⟩ := by
  have hload : (opened remotePath bytes).loadDownloadedFile = .ok (showing remotePath bytes crlf normalized) :=
    load_opened.mpr ⟨normalized, crlf, hread, rfl⟩
  have hop : (opened remotePath bytes).onOperationSucceeded "download" remotePath =
      (showing remotePath bytes crlf normalized, none) := by
    unfold SftpFileEditor.onOperationSucceeded
    rw [if_neg (fun h => h rfl), if_pos ⟨rfl, Bool.false_ne_true⟩, hload]
    rfl
  have hnext : (EditorRun.start remotePath (some bytes)).next (.downloadSucceeded none) =
      EditorRun.emit
        ⟨((opened remotePath bytes).onOperationSucceeded "download" remotePath).1, [], some bytes, bytes⟩
        ((opened remotePath bytes).onOperationSucceeded "download" remotePath).2 := rfl
  rw [hnext, hop]
  rfl

theorem readText_a : readText [97] = .ok (['a'], false) :=
  @readText_encode ['a'] (by decide) (by decide) (by decide)

theorem readText_b : readText [98] = .ok (['b'], false) :=
  @readText_encode ['b'] (by decide) (by decide) (by decide)

end LvdTerm.Sftp
