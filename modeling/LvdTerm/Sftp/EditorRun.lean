import LvdTerm.Sftp.FileEditor

/-!
# SftpFileEditor: what happens to an editor

An open editor answers events in any order. `saveAndWait` and the message boxes wait in event loops
of their own, in which further events are handled, so the calls that wait are a stack. A message
box takes the input of the window away; an event loop that was told to quit handles no further
event, but it ends only when every loop started in it has ended.
-/
namespace LvdTerm.Sftp

inductive Frame where
  /-- `requestClose` in `QMessageBox::question`. -/
  | question
  /-- `saveAndWait` in `loop.exec()`; `quit` after `saveFinished`. -/
  | waiting (quit : Bool)
  /-- `onOperationFailed` in `QMessageBox::warning`. -/
  | warning
  deriving DecidableEq

def Frame.isBox : Frame → Bool
  | .waiting _ => false
  | _ => true

/-- `saveFinished` reaches every loop. -/
def Frame.saveFinished : Frame → Frame
  | .waiting _ => .waiting true
  | f => f

structure EditorRun where
  editor : SftpFileEditor
  /-- The innermost call first. -/
  frames : List Frame
  /-- The file on the server. -/
  remote : Option (List UInt8)
  /-- What the last transfer that succeeded brought over: the bytes that were downloaded, or those
  of the last successful upload. -/
  confirmed : List UInt8

/-- A failed upload leaves anything on the server. -/
inductive EditorEvent where
  /-- `unreadable` is the error if the working copy cannot be opened. -/
  | downloadSucceeded (unreadable : Option String)
  | edit (change : Edit)
  | save (reply : WriteReply)
  | uploadSucceeded
  | uploadFailed (left : Option (List UInt8)) (message : String)
  | warningClosed
  | close
  | answer (choice : Answer)
  | loopEnded

namespace EditorRun

def start (remotePath : String) (remote : Option (List UInt8)) : EditorRun := ⟨.fresh remotePath, [], remote, []⟩

/-- No message box is open. -/
def takesInput (s : EditorRun) : Bool := s.frames.all fun f => !f.isBox

/-- `result` is what the emitted `saveFinished` carries, if it is emitted. -/
def emit (s : EditorRun) (result : Option Bool) : EditorRun :=
  if result.isSome then { s with frames := s.frames.map Frame.saveFinished } else s

def handle (s : EditorRun) : EditorEvent → EditorRun × Option CloseResult
  | .downloadSucceeded unreadable =>
    match s.remote with
    | none => (s, none)
    | some bytes =>
      if s.editor.loaded then (s, none)
      else
        let copy := match unreadable with
          | none => .ok bytes
          | some message => .error message
        let (e, finished) :=
          { s.editor with workingCopy := copy }.onOperationSucceeded "download" s.editor.remotePath
        ({ s with editor := e, confirmed := bytes }.emit finished, none)
  | .edit change =>
    if s.takesInput ∧ s.editor.loaded then
      ({ s with editor := { s.editor with document := change.apply s.editor.document } }, none)
    else (s, none)
  | .save reply => if s.takesInput then ({ s with editor := (s.editor.startSave reply).1 }, none) else (s, none)
  | .uploadSucceeded =>
    match s.editor.saving, s.editor.workingCopy with
    | true, .ok bytes =>
      let (e, finished) := s.editor.onOperationSucceeded "upload" s.editor.remotePath
      ({ s with editor := e, remote := some bytes, confirmed := bytes }.emit finished, none)
    | _, _ => (s, none)
  | .uploadFailed left _ =>
    if s.editor.saving then
      let (e, warns) := s.editor.onOperationFailed "upload" s.editor.remotePath
      ({ s with editor := e, remote := left, frames := if warns then .warning :: s.frames else s.frames }, none)
    else (s, none)
  | .warningClosed =>
    match s.frames with
    | .warning :: frames =>
      let (e, finished) := s.editor.warningClosed
      ({ s with editor := e, frames := frames }.emit finished, none)
    | _ => (s, none)
  | .close =>
    match s.editor.requestClose with
    | some result => (s, some result)
    | none => ({ s with frames := .question :: s.frames }, none)
  | .answer choice =>
    match s.frames with
    | .question :: frames =>
      let (e, result) := s.editor.answered choice
      ({ s with editor := e, frames := if result.isSome then frames else .waiting false :: frames }, result)
    | _ => (s, none)
  | .loopEnded => (s, none)

/-- The state after an event, and how `requestClose` ended if a call of it ended. -/
def step (s : EditorRun) (event : EditorEvent) : EditorRun × Option CloseResult :=
  match s.frames, event with
  | .waiting true :: frames, .loopEnded => ({ s with frames := frames }, some (.saved s.editor.lastSaveOk))
  | .waiting true :: _, _ => (s, none)
  | _, event => s.handle event

def next (s : EditorRun) (event : EditorEvent) : EditorRun := (s.step event).1

end EditorRun

end LvdTerm.Sftp
